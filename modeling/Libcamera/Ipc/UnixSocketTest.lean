import Libcamera.Ipc.Slave
import Libcamera.Test

/-!
Contract: `UnixSocketTest`, the master of `test/ipc/unixsocket.cpp`, and the run of the
whole test: the master and the slave as two processes, with the messages in flight each
way, and one step per event.

Owns: the master's tests `testReverse`, `testEmptyFail`, `testCalc`, `testCmp` and
`testFdOrder`, with `prepareFDs`; `call()`, whose wait may end in a timeout; `slaveStop()`
and `run()`; the slave's event loop in `UnixSocketTestSlave::run()`; `System.step` and the
runs it makes.

Does not own: `create`, `fork` and `exec`, taken to succeed, so a run starts with the
slave running and bound to its end of the socket; `ipc_.close()`, since the socket is not
among the descriptors modelled; the event dispatchers, whose only role here is to call
`readyRead` once per message.

A step of the master runs its code from one wait to the next. Between two waits it uses the
socket only to send, and it touches no description that the slave may be using, so the
slave's steps cannot interleave with it in a way that changes an outcome. A step of the
slave runs `readyRead` on the oldest message it has not received. The timer of `call()`
may expire at any time while the master waits, so a timeout is a step of its own. The
master's `readyRead` receives each reply, with the descriptors it carries, before the code
after the wait runs.
-/

set_option autoImplicit false

namespace Libcamera.Ipc

open IPCUnixSocket

/-- Where the master is: before `testReverse`; waiting in the `call()` of `testReverse`, of
`testCalc` (which sent descriptors of total length `sizeOut`) or of `testFdOrder` (which
sent the descriptors `fds`); in the `waitpid()` of `slaveStop()`; or returned from `run()`
with `result`. -/
inductive Master where
  | starting
  | reversing
  | calculating (sizeOut : Int)
  | joining (fds : List Fd)
  | stopping
  | finished (result : Int)
deriving DecidableEq, Repr

namespace UnixSocketTest

/-! ## The master's code between two waits -/

/-- The loop of `prepareFDs` from the given `size`, for `num` more passes of
`int clone = dup(fd)`, each clone's length added to `size`: whether it ran to its end, the
sum or the -1 that `dup` returned, the clones, and the kernel; `none` where a sum is not an
`int`. -/
def cloneFDs (fd : Fd) : Nat → Files → Int → Option (Bool × Int × List Fd × Files)
  | 0, files, size => some (true, size, [], files)
  | num + 1, files, size =>
      match files.dup .master fd with
      | none => some (false, -1, [], files)
      | some (clone, files) =>
          let length := calculateLength files .master clone
          (addInt size length.1).bind fun size =>
            (cloneFDs fd num length.2 size).map fun later =>
              (later.1, later.2.1, clone :: later.2.2.1, later.2.2.2)

/-- `prepareFDs(message, num)`: `num` duplicates of a new descriptor of the executable,
added to `message`, and the sum of their lengths, or the error of `dup`; the descriptor of
the executable is closed when every `dup` succeeds. `none` where a sum is not an `int`. -/
def prepareFDs (files : Files) (message : Payload) (num : Nat) : Option (Int × Payload × Files) :=
  let opened := files.openExe .master
  (cloneFDs opened.1 num opened.2 0).map fun cloned =>
    let message := { message with fds := message.fds ++ cloned.2.2.1 }
    if cloned.1 then (cloned.2.1, message, (cloned.2.2.2.close .master opened.1).2)
    else (cloned.2.1, message, cloned.2.2.2)

/-- The message of `testReverse`. -/
def reverseMessage : Payload :=
  ⟨[CMD_REVERSE, 1, 2, 3, 4, 5], []⟩

/-- `strings` of `testFdOrder`, "Foo" and "Bar", without their terminating NULs. -/
def fdOrderStrings : List (List UInt8) :=
  [[70, 111, 111], [66, 97, 114]]

/-- The loop of `testFdOrder` that writes each string to a new temporary file and rewinds
it: the descriptors, or `none` when `open` or `write` fails; and the kernel after. -/
def writeStrings (files : Files) : List (List UInt8) → Option (List Fd) × Files
  | [] => (some [], files)
  | string :: rest =>
      match files.openTmpfile .master with
      | none => (none, files)
      | some (fd, files) =>
          let written := files.write .master fd string
          if written.1 < 0 then (none, written.2)
          else
            let later := writeStrings (written.2.lseek .master fd 0 .seekSet).2 rest
            (later.1.map (fd :: ·), later.2)

/-- The loop of `testFdOrder` that closes each of `fds` and reads the next string back
from `joined`: `false` when a read returns nothing or `memcmp` finds a difference; `none`
when a read returns fewer bytes than the string, and `memcmp` compares bytes the read did
not write, or when `fds[i]` is past the end of `fds`. -/
def readStrings (joined : Fd) : List Fd → List (List UInt8) → Files → Option (Bool × Files)
  | _, [], files => some (true, files)
  | [], _ :: _, _ => none
  | fd :: fds, string :: rest, files =>
      let read := (files.close .master fd).2.read .master joined string.length
      if read.1 ≤ 0 then some (false, read.2.2)
      else if read.2.1.length < string.length then none
      else if read.2.1 ≠ string then some (false, read.2.2)
      else readStrings joined fds rest read.2.2

/-- `run()` up to the wait in the `call()` of `testReverse`: where the master is, and the
messages it sent. -/
def startRun : Master × List Payload :=
  let sent := send reverseMessage
  (if sent.1 ≠ 0 then .finished TestFail else .reversing, sent.2.toList)

/-- The rest of `testReverse` once `call()` has received `response`, `testEmptyFail`, and
`testCalc` up to its `call()`; `none` where the behaviour is undefined. -/
def afterReverse (files : Files) (response : Payload) : Option (Master × Files × List Payload) :=
  match response.data with
  | [] => none
  | cmd :: rest =>
      if reverseMessage.data ≠ cmd :: rest.reverse then some (.finished TestFail, files, [])
      else
        let empty := send ⟨[], []⟩
        if empty.1 ≠ -EINVAL then some (.finished TestFail, files, empty.2.toList)
        else
          (prepareFDs files ⟨[], []⟩ 2).map fun prepared : Int × Payload × Files =>
            if prepared.1 < 0 then (.finished TestFail, prepared.2.2, [])
            else
              let sent := send { prepared.2.1 with data := prepared.2.1.data ++ [CMD_LEN_CALC] }
              (if sent.1 ≠ 0 then .finished TestFail else .calculating prepared.1,
                prepared.2.2, sent.2.toList)

/-- The rest of `testCalc` once `call()` has received `response`, `testCmp`, and
`testFdOrder` up to its `call()`; `none` where the behaviour is undefined. -/
def afterCalc (files : Files) (sizeOut : Int) (response : Payload) :
    Option (Master × Files × List Payload) :=
  (bytesInt (response.data.drop 1)).bind fun sizeIn =>
    if sizeOut ≠ signed sizeIn then some (.finished TestFail, files, [])
    else
      (prepareFDs files ⟨[], []⟩ 7).map fun prepared : Int × Payload × Files =>
        if prepared.1 < 0 then (.finished TestFail, prepared.2.2, [])
        else
          let compare := send { prepared.2.1 with data := CMD_LEN_CMP :: intBytes (toInt32 prepared.1) }
          if compare.1 ≠ 0 then (.finished TestFail, prepared.2.2, compare.2.toList)
          else
            let written := writeStrings prepared.2.2 fdOrderStrings
            match written.1 with
            | none => (.finished TestFail, written.2, compare.2.toList)
            | some fds =>
                let sent := send ⟨[CMD_JOIN], fds⟩
                (if sent.1 ≠ 0 then .finished TestFail else .joining fds, written.2,
                  compare.2.toList ++ sent.2.toList)

/-- The rest of `testFdOrder`, which sent `fds`, once `call()` has received `response`; the
`CMD_CLOSE` message; and `slaveStop()` up to its `waitpid()`. `none` where the behaviour is
undefined. -/
def afterJoin (files : Files) (fds : List Fd) (response : Payload) :
    Option (Master × Files × List Payload) :=
  match response.fds with
  | [] => none
  | joined :: _ =>
      (readStrings joined fds fdOrderStrings files).map fun checked =>
        if checked.1 = false then (.finished TestFail, checked.2, [])
        else
          let sent := send ⟨[CMD_CLOSE], []⟩
          (if sent.1 ≠ 0 then .finished TestFail else .stopping, (checked.2.close .master joined).2,
            sent.2.toList)

/-- `slaveStop()` once `waitpid()` has returned for a slave that returned `exitCode`, and
the end of `run()`: the test passes when the exit status, the low byte of the code, is 0. -/
def afterWait (exitCode : Int) : Master :=
  .finished (if exitCode % 256 = 0 then TestPass else TestFail)

end UnixSocketTest

/-! ## Both processes -/

/-- The test's two processes; the messages the master sent that the slave has not received
(`toSlave`) and those the slave sent that the master has not received (`toMaster`), oldest
first; and whether the timer of a `call()` has expired. -/
structure System where
  master : Master
  slave : UnixSocketTestSlave
  files : Files
  toSlave : List Payload
  toMaster : List Payload
  timedOut : Bool
deriving DecidableEq, Repr

/-- A machine for concrete runs: no description open yet, a one-byte executable, and `/tmp`
supporting `O_TMPFILE`. -/
def sampleFiles : Files :=
  ⟨[], [], [], [0], true⟩

/-- What can happen next: the master's code runs to its next wait, or returns from `run()`;
the slave's dispatcher passes the next message to `readyRead`; or the timer of the master's
`call()` expires. -/
inductive Event where
  | master
  | slave
  | timeout
deriving DecidableEq, Repr

namespace System

open UnixSocketTest

/-- The test once the slave has started: no message sent yet. -/
def new (files : Files) : System :=
  ⟨.starting, .new, files, [], [], false⟩

/-- The master continues to `next` after receiving the oldest message, leaving `rest`. -/
def resume (system : System) (rest : List Payload) (next : Master × Files × List Payload) :
    System :=
  { system with
    master := next.1
    files := next.2.1
    toMaster := rest
    toSlave := system.toSlave ++ next.2.2 }

/-- One event; `none` when it cannot happen, or when the code it runs has undefined
behaviour. -/
def step (system : System) : Event → Option System
  | .master =>
      match system.master, system.toMaster with
      | .starting, _ =>
          some { system with master := startRun.1, toSlave := system.toSlave ++ startRun.2 }
      | .reversing, response :: rest =>
          (afterReverse (receive system.files .master response) response).map (system.resume rest)
      | .calculating sizeOut, response :: rest =>
          (afterCalc (receive system.files .master response) sizeOut response).map (system.resume rest)
      | .joining fds, response :: rest =>
          (afterJoin (receive system.files .master response) fds response).map (system.resume rest)
      | .stopping, _ =>
          if system.slave.exit then some { system with master := afterWait system.slave.exitCode }
          else none
      | _, _ => none
  | .slave =>
      match system.slave.exit, system.toSlave with
      | false, message :: rest =>
          (system.slave.readyRead system.files message).map fun handled =>
            { system with
              slave := handled.1
              files := handled.2.1
              toSlave := rest
              toMaster := system.toMaster ++ handled.2.2.toList }
      | _, _ => none
  | .timeout =>
      match system.master with
      | .reversing | .calculating _ | .joining _ =>
          some { system with master := .finished TestFail, timedOut := true }
      | _ => none

/-- Whether `event` can happen in `system`: the master runs when it is not waiting, or a
message or the slave's exit ends its wait; the slave runs while a message waits for it and
it has not stopped; a timer runs while the master waits in `call()`. -/
def enabled (system : System) : Event → Bool
  | .master =>
      match system.master with
      | .starting => true
      | .reversing | .calculating _ | .joining _ => !system.toMaster.isEmpty
      | .stopping => system.slave.exit
      | .finished _ => false
  | .slave => !system.slave.exit && !system.toSlave.isEmpty
  | .timeout =>
      match system.master with
      | .reversing | .calculating _ | .joining _ => true
      | _ => false

/-- The events in order; `none` when one cannot happen. -/
def run (system : System) : List Event → Option System
  | [] => some system
  | event :: rest => (system.step event).bind fun next => next.run rest

/-- The states that some interleaving of the two processes reaches from the start. -/
inductive Reachable (files : Files) : System → Prop
  | new : Reachable files (System.new files)
  | step {system next : System} (event : Event) :
      Reachable files system → system.step event = some next → Reachable files next

end System

end Libcamera.Ipc
