import Libcamera.LogProcess.Strings
import Libcamera.CInt
import Libcamera.Test

/-!
Contract: `test/log/log_process.cpp`, the test of logging from an isolated child process:
the test starts a copy of its own executable through `Process`; the copy logs a message to
a file and exits; the test then checks how the child exited and what the file holds.

Owns: `LogProcessTestChild::run` and the child's branch of `main`; `LogProcessTest`'s
`init`, `run`, `cleanup` and `procFinished`; the files of `/tmp` that the two use; the run
of both processes, one step per event.

Does not own: `Process` (`process.cpp`), `logSetFile` and the format of a log line
(`log.cpp`), the event dispatcher, `Timer`, and `Test::execute` (`test.cpp`), none of which
is among the sources. `Process` is modelled from the spec's process supervisor: `start`
either fails or runs the executable with `argv[1]` and `argv[2]` set to the two arguments,
and its `finished` signal, which the dispatcher delivers, carries `NormalExit` and the low
byte of the code the child returned, or `SignalExit` and -1 for a child that aborted.
`logSetFile` opens its file for appending, creating it where it is missing, which fails
where `/tmp` takes no new file; each line the log writes is a header (time stamp, severity,
category and place in the source, which this model leaves open), the message, and a
newline. `Test::execute` runs `init()`, `run()` and `cleanup()` in turn. Files hold bytes;
paths are lists of characters.

A step of either process runs its code from one wait to the next: the child's whole `main`
once it has been started (its `usleep` only delays the step), the parent's `run()` up to its
event loop, and the rest of `run()` with `cleanup()` once the timer has expired. While the
timer runs the dispatcher may deliver the child's `finished` signal, and the timer may
expire before it does.
-/

set_option autoImplicit false

namespace Libcamera.LogProcess

/-! ## The files of `/tmp` -/

/-- The files of `/tmp`: the contents of the file at each path, if there is one; and whether
a file can be created or removed there. -/
structure Directory where
  contents : List Char → Option (List UInt8)
  writable : Bool

namespace Directory

/-- `dir` with the file at `path` holding `text`. -/
def set (dir : Directory) (path : List Char) (text : List UInt8) : Directory :=
  { dir with contents := fun other => if other = path then some text else dir.contents other }

/-- `unlink(path)`: the file at `path` removed, where `/tmp` allows it. -/
def unlink (dir : Directory) (path : List Char) : Directory :=
  if dir.writable then { dir with contents := fun other => if other = path then none else dir.contents other }
  else dir

@[simp] theorem set_contents (dir : Directory) (path : List Char) (text : List UInt8) (other : List Char) :
    (dir.set path text).contents other = if other = path then some text else dir.contents other :=
  rfl

@[simp] theorem set_writable (dir : Directory) (path : List Char) (text : List UInt8) :
    (dir.set path text).writable = dir.writable :=
  rfl

@[simp] theorem unlink_writable (dir : Directory) (path : List Char) :
    (dir.unlink path).writable = dir.writable := by
  unfold unlink
  split <;> rfl

theorem unlink_contents_self {dir : Directory} (writable : dir.writable = true) (path : List Char) :
    (dir.unlink path).contents path = none := by
  simp [unlink, writable]

end Directory

/-- `logSetFile(path)` of `log.cpp`: `/tmp` with the file at `path` open for appending, or
`none` where it cannot be opened and the call returns a negative code. -/
def logSetFile (dir : Directory) (path : List Char) : Option Directory :=
  match dir.contents path with
  | some _ => some dir
  | none => if dir.writable then some (dir.set path []) else none

/-- `LOG(category, severity) << text` once the log goes to the file at `path`: the line
appended to the file. -/
def logLine (dir : Directory) (path : List Char) (header text : List UInt8) : Directory :=
  dir.set path ((dir.contents path).getD [] ++ header ++ text ++ ['\n'.toUInt8])

/-! ## The child -/

namespace LogProcessTest

/-- `message` of `log_process.cpp`. -/
def message : List UInt8 :=
  "hello from the child".toList.map Char.toUInt8

/-- The path that `init()` and the child both build from `num`:
`"/tmp/libcamera.worker.test." + to_string(num) + ".log"`. -/
def logPathFor (num : Int) : List Char :=
  "/tmp/libcamera.worker.test.".toList ++ to_string num ++ ".log".toList

end LogProcessTest

namespace LogProcessTestChild

open LogProcessTest

/-- `LogProcessTestChild::run(status, num)`, where the log writes `header` before each
message: the value it returns, and `/tmp` after. -/
def run (header : List UInt8) (dir : Directory) (status num : Int) : Int × Directory :=
  let logPath := logPathFor num
  match logSetFile dir logPath with
  | none => (TestSkip, dir)
  | some dir => (status, logLine dir logPath header message)

/-- `main(argc, argv)` where `argc == 3`, which runs the child: the value it returns, or
`none` when `stoi` throws and the uncaught exception aborts the process; and `/tmp` after. -/
def main (header : List UInt8) (dir : Directory) (argv1 argv2 : List Char) :
    Option Int × Directory :=
  match stoi argv1, stoi argv2 with
  | some status, some num =>
      let ran := run header dir status num
      (some ran.1, ran.2)
  | _, _ => (none, dir)

end LogProcessTestChild

/-! ## `Process` -/

namespace Process

/-- Modelled from the spec: `Process::ExitStatus`, how a supervised child ended, or that it
has not; `process.h` is not among the sources, and its first enumerator, the zero of the
enumeration, is `NotExited`. -/
inductive ExitStatus where
  | notExited
  | normalExit
  | signalExit
deriving DecidableEq, Repr

/-- Modelled from the spec: what the `finished` signal of `Process` carries for a child whose
`main` returned `code` (an exit status of its low byte), or that aborted (`none`). -/
def report : Option Int → ExitStatus × Int
  | some code => (.normalExit, code % 256)
  | none => (.signalExit, -1)

end Process

/-! ## The parent -/

/-- The members of `LogProcessTest` that its methods use: `exitStatus_`, `exitCode_`, `num_`
and `logPath_`. -/
structure LogProcessTest where
  exitStatus : Process.ExitStatus
  exitCode : Int
  num : Int
  logPath : List Char
deriving DecidableEq, Repr

/-- Where the parent is: before `run()`, in its event loop with the local `exitCode` that
the code after the loop reads, or returned from `run()` with `result`, after `cleanup()`. -/
inductive Parent where
  | starting
  | waiting (exitCode : Int)
  | finished (result : Int)
deriving DecidableEq, Repr

/-- The child: not started, running with `argv[1]` and `argv[2]`, exited with what
`finished` will carry, or exited with that delivered to the parent. -/
inductive Child where
  | notStarted
  | running (argv1 argv2 : List Char)
  | exited (exitStatus : Process.ExitStatus) (exitCode : Int)
  | reaped
deriving DecidableEq, Repr

namespace LogProcessTest

/-- `LogProcessTest()` then `init()`, where `random()` returned `random`, which `num_ = random()`
converts to an `int`: the value initialisation of the test zeroes `exitStatus_` and
`exitCode_` before `init()` runs. -/
def init (random : UInt32) : LogProcessTest :=
  let num := signed random
  ⟨.notExited, 0, num, logPathFor num⟩

/-- `run()` up to its event loop, where `proc_.start` returned `ret`: where the parent is
next, and the child it started. -/
def start (test : LogProcessTest) (ret : Int) : Parent × Child :=
  let exitCode : Int := 42
  let args := (to_string exitCode, to_string test.num)
  if ret ≠ 0 then (.finished TestFail, .notStarted) else (.waiting exitCode, .running args.1 args.2)

/-- `procFinished(proc, exitStatus, exitCode)`. -/
def procFinished (test : LogProcessTest) (exitStatus : Process.ExitStatus) (exitCode : Int) :
    LogProcessTest :=
  { test with exitStatus, exitCode }

@[simp] theorem procFinished_logPath (test : LogProcessTest) (exitStatus : Process.ExitStatus)
    (exitCode : Int) : (test.procFinished exitStatus exitCode).logPath = test.logPath :=
  rfl

/-- `buf` once `memset(buf, 0, sizeof(buf))` and `read(fd, buf, sizeof(buf))` from the start
of a file holding `contents` have run: the first 200 bytes of the file, then NULs. -/
def readBuffer (contents : List UInt8) : List UInt8 :=
  contents.take 200 ++ List.replicate (200 - contents.length) NUL

/-- `run()` from the expiry of its timer, with its local `exitCode`: the value it returns;
`none` where the behaviour is undefined. `open` fails only where the file is missing, and
`read` on a regular file does not fail. -/
def afterTimeout (test : LogProcessTest) (exitCode : Int) (dir : Directory) : Option Int :=
  if test.exitStatus ≠ .normalExit then some TestFail
  else if test.exitCode = TestSkip then some TestSkip
  else if test.exitCode ≠ exitCode then some TestFail
  else
    match dir.contents test.logPath with
    | none => some TestFail
    | some contents =>
        (cString (readBuffer contents)).map fun str =>
          if find str message = none then TestFail else TestPass

/-- `cleanup()`. -/
def cleanup (test : LogProcessTest) (dir : Directory) : Directory :=
  dir.unlink test.logPath

end LogProcessTest

/-! ## Both processes -/

/-- The test's two processes, the files of `/tmp`, and the header that the log writes
before the child's message. -/
structure LogProcessSystem where
  parent : Parent
  test : LogProcessTest
  child : Child
  dir : Directory
  header : List UInt8

/-- What can happen next: the parent runs `run()` to its event loop, where `proc_.start`
returns `ret`; the child runs `main`; the dispatcher delivers the child's `finished` signal
to `procFinished`; or the timer expires, and the parent returns from `run()` and runs
`cleanup()`. -/
inductive LogProcessEvent where
  | start (ret : Int)
  | child
  | finished
  | timeout
deriving DecidableEq, Repr

namespace LogProcessSystem

open LogProcessTest

/-- The test after `init()`, where `random()` returned `random`, on a machine whose log
writes `header` and whose `/tmp` is `dir`. -/
def new (random : UInt32) (header : List UInt8) (dir : Directory) : LogProcessSystem :=
  ⟨.starting, init random, .notStarted, dir, header⟩

/-- `run()` has returned `result`, and `execute()` has run `cleanup()`. -/
def finish (system : LogProcessSystem) (result : Int) : LogProcessSystem :=
  { system with parent := .finished result, dir := system.test.cleanup system.dir }

/-- One event; `none` when it cannot happen, or when the code it runs has undefined
behaviour. -/
def step (system : LogProcessSystem) : LogProcessEvent → Option LogProcessSystem
  | .start ret =>
      match system.parent with
      | .starting =>
          let started := system.test.start ret
          let next := { system with parent := started.1, child := started.2 }
          some (if ret ≠ 0 then next.finish TestFail else next)
      | _ => none
  | .child =>
      match system.child with
      | .running argv1 argv2 =>
          let ran := LogProcessTestChild.main system.header system.dir argv1 argv2
          let report := Process.report ran.1
          some { system with child := .exited report.1 report.2, dir := ran.2 }
      | _ => none
  | .finished =>
      match system.parent, system.child with
      | .waiting _, .exited exitStatus exitCode =>
          some { system with test := system.test.procFinished exitStatus exitCode, child := .reaped }
      | _, _ => none
  | .timeout =>
      match system.parent with
      | .waiting exitCode => (system.test.afterTimeout exitCode system.dir).map system.finish
      | _ => none

/-- Whether `event` can happen: the parent starts once; the child runs once started; the
dispatcher delivers `finished` while the parent is in its event loop; and the timer expires
while it is. -/
def enabled (system : LogProcessSystem) : LogProcessEvent → Bool
  | .start _ => system.parent = .starting
  | .child => match system.child with
      | .running _ _ => true
      | _ => false
  | .finished => match system.parent, system.child with
      | .waiting _, .exited _ _ => true
      | _, _ => false
  | .timeout => match system.parent with
      | .waiting _ => true
      | _ => false

/-- The events in order; `none` when one cannot happen. -/
def run (system : LogProcessSystem) : List LogProcessEvent → Option LogProcessSystem
  | [] => some system
  | event :: rest => (system.step event).bind fun next => next.run rest

/-- The states that some interleaving of the two processes reaches from the start. -/
inductive Reachable (random : UInt32) (header : List UInt8) (dir : Directory) :
    LogProcessSystem → Prop
  | new : Reachable random header dir (LogProcessSystem.new random header dir)
  | step {system next : LogProcessSystem} (event : LogProcessEvent) :
      Reachable random header dir system → system.step event = some next →
      Reachable random header dir next

end LogProcessSystem

end Libcamera.LogProcess
