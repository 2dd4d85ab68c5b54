import Libcamera.Ipc.Kernel
import Libcamera.CInt

/-!
Contract: the slave process of `test/ipc/unixsocket.cpp`, `UnixSocketTestSlave`, with the
test's `calculateLength`.

Owns: the commands `CMD_*`; `calculateLength` and the loop that sums it over a message's
descriptors; the four-byte `memcpy` of an `int` into and out of a payload; `stop()`; and
`readyRead()`, with the two loops of `CMD_JOIN` that copy the message's files into a new
one and close each descriptor once copied.

Does not own: the event loop of `run()`, which delivers one message at a time to
`readyRead` while `exit_` is false (`UnixSocketTest` runs it against the master, `serve` in
`Libcamera.Ipc.Commands` against any peer); `bind`; and `receive`, which the spec makes
return each whole message in the order sent.

`readyRead` returns `none` where the code's behaviour is undefined: it reads `data[0]` of a
message without bytes, `CMD_LEN_CMP` copies four bytes from past the end of a message of
fewer than five, and `size += calculateLength(fd)` may overflow an `int`. `memcpy` lays an
`int` out least significant byte first; master and slave run on one machine, so only the
round trip matters. The `while (true)` loop of `CMD_JOIN` is given fuel of one pass more
than the bytes left to read, which `copyFd_of_fuel` shows is always enough.
-/

set_option autoImplicit false

namespace Libcamera.Ipc

open IPCUnixSocket

def CMD_CLOSE : UInt8 := 0
def CMD_REVERSE : UInt8 := 1
def CMD_LEN_CALC : UInt8 := 2
def CMD_LEN_CMP : UInt8 := 3
def CMD_JOIN : UInt8 := 4

/-- `EXIT_FAILURE` of `stdlib.h`. -/
def EXIT_FAILURE : Int := 1

/-! ## `int`s in a payload -/

/-- `memcpy` of an `int` with this 32-bit pattern to four bytes. -/
def intBytes (value : UInt32) : List UInt8 :=
  [UInt8.ofNat value.toNat, UInt8.ofNat (value.toNat / 2 ^ 8), UInt8.ofNat (value.toNat / 2 ^ 16),
    UInt8.ofNat (value.toNat / 2 ^ 24)]

/-- `memcpy(&value, bytes, sizeof(value))`: the pattern of the `int` made of the first four
of `bytes`; `none` when there are fewer, and the copy reads past the end of the vector. -/
def bytesInt : List UInt8 → Option UInt32
  | b0 :: b1 :: b2 :: b3 :: _ =>
      some (UInt32.ofNat (b0.toNat + 2 ^ 8 * b1.toNat + 2 ^ 16 * b2.toNat + 2 ^ 24 * b3.toNat))
  | _ => none

theorem toNat_uint8_ofNat (n : Nat) : (UInt8.ofNat n).toNat = n % 2 ^ 8 := by
  simp [UInt8.toNat, UInt8.ofNat]

/-- The bytes that `memcpy` writes into a payload give back the `int` they were copied
from, whatever follows them. -/
theorem bytesInt_intBytes (value : UInt32) (rest : List UInt8) :
    bytesInt (intBytes value ++ rest) = some value := by
  simp only [intBytes, bytesInt, List.cons_append, List.nil_append, Option.some.injEq]
  apply UInt32.toNat.inj
  have bound := value.toNat_lt_size
  simp only [toNat_uint32_ofNat, toNat_uint8_ofNat, UInt32.size] at bound ⊢
  omega

/-- The `memcpy` of an `int` out of a payload reads defined bytes exactly when the payload
holds four bytes. -/
theorem bytesInt_isSome (bytes : List UInt8) : (bytesInt bytes).isSome ↔ 4 ≤ bytes.length := by
  match bytes with
  | _ :: _ :: _ :: _ :: _ => simp [bytesInt]
  | [] | [_] | [_, _] | [_, _, _] => simp [bytesInt]

/-! ## Lengths -/

/-- `calculateLength(fd)` in `process`: the length of `fd`'s file converted to an `int`, or
-1 when `fd` is not open; the file is left rewound. -/
def calculateLength (files : Files) (process : Process) (fd : Fd) : Int × Files :=
  let files := (files.lseek process fd 0 .seekSet).2
  let size := files.lseek process fd 0 .seekEnd
  (toInt size.1, (size.2.lseek process fd 0 .seekSet).2)

/-- `for (int fd : fds) size += calculateLength(fd);` in `process` from the given `size`;
`none` where a sum is not an `int`. -/
def sumLengths (files : Files) (process : Process) (size : Int) : List Fd → Option (Int × Files)
  | [] => some (size, files)
  | fd :: rest =>
      let length := calculateLength files process fd
      (addInt size length.1).bind fun size => sumLengths length.2 process size rest

theorem calculateLength_of_find {files : Files} {process : Process} {fd : Fd} {file : OpenFile}
    (found : files.find process fd = some file) :
    calculateLength files process fd =
      (toInt file.data.length, files.set fd { file with offset := 0 }) := by
  have rewound := files.find_set_self process fd { file with offset := 0 } found
  have atEnd := files.find_set_self process fd { file with offset := file.data.length } found
  simp only [calculateLength, Files.lseek_seekSet found, Files.lseek_seekEnd rewound,
    Nat.add_zero, Files.set_set, Files.lseek_seekSet atEnd]

theorem calculateLength_of_none {files : Files} {process : Process} {fd : Fd}
    (closed : files.find process fd = none) : calculateLength files process fd = (-1, files) := by
  simp only [calculateLength, Files.lseek_of_none closed, toInt_of_isInt (show isInt (-1) = true by decide)]

/-! ## The slave -/

/-- The fields of `UnixSocketTestSlave` that `readyRead` and `run` use: `exitCode_`, which
`run()` returns, and `exit_`, which ends its loop. -/
structure UnixSocketTestSlave where
  exitCode : Int
  exit : Bool
deriving DecidableEq, Repr

namespace UnixSocketTestSlave

/-- `UnixSocketTestSlave()`. -/
def new : UnixSocketTestSlave :=
  ⟨EXIT_FAILURE, false⟩

/-- `stop(code)`. -/
def stop (slave : UnixSocketTestSlave) (code : Int) : UnixSocketTestSlave :=
  { slave with exitCode := code, exit := true }

@[simp] theorem new_exit : new.exit = false := rfl

@[simp] theorem stop_exit (slave : UnixSocketTestSlave) (code : Int) : (slave.stop code).exit = true :=
  rfl

@[simp] theorem stop_exitCode (slave : UnixSocketTestSlave) (code : Int) :
    (slave.stop code).exitCode = code := rfl

/-- The bytes left to read in the description of `fd`; none when there is no such
description. -/
def unread (files : Files) (fd : Fd) : List UInt8 :=
  ((files.get fd).map fun file => file.data.drop file.offset).getD []

/-- The `while (true)` loop of `CMD_JOIN` for one descriptor: read up to 32 bytes of `fd`,
stop at a read that returns 0, and write what was read to `outfd`; `false` when a read or a
write fails, and `none` when `fuel` runs out. -/
def copyFd (outfd fd : Fd) : Nat → Files → Option (Bool × Files)
  | 0, _ => none
  | fuel + 1, files =>
      let (num, buf, files) := files.read .slave fd 32
      if num < 0 then some (false, files)
      else if num = 0 then some (true, files)
      else
        let (written, files) := files.write .slave outfd buf
        if written < 0 then some (false, files) else copyFd outfd fd fuel files

/-- The `for (int fd : message.fds)` loop of `CMD_JOIN`, which closes each descriptor once
copied; `false` when a copy fails. -/
def joinFds (outfd : Fd) : List Fd → Files → Option (Bool × Files)
  | [], files => some (true, files)
  | fd :: rest, files =>
      match copyFd outfd fd ((unread files fd).length + 1) files with
      | some (true, files) => joinFds outfd rest (files.close .slave fd).2
      | result => result

/-- `ret = ipc_.send(response); if (ret < 0) stop(ret);`, which ends each reply. -/
def reply (slave : UnixSocketTestSlave) (files : Files) (response : Payload) :
    UnixSocketTestSlave × Files × Option Payload :=
  let sent := send response
  (if sent.1 < 0 then slave.stop sent.1 else slave, files, sent.2)

/-- `UnixSocketTestSlave::readyRead()` once `receive` has returned `message`: the slave, the
kernel and the reply sent, if any; `none` where the code's behaviour is undefined. -/
def readyRead (slave : UnixSocketTestSlave) (files : Files) (message : Payload) :
    Option (UnixSocketTestSlave × Files × Option Payload) :=
  let files := receive files .slave message
  match message.data with
  | [] => none
  | cmd :: rest =>
      if cmd = CMD_CLOSE then
        some (slave.stop 0, files, none)
      else if cmd = CMD_REVERSE then
        some (reply slave files ⟨cmd :: rest.reverse, []⟩)
      else if cmd = CMD_LEN_CALC then
        (sumLengths files .slave 0 message.fds).map fun size =>
          reply slave size.2 ⟨cmd :: intBytes (toInt32 size.1), []⟩
      else if cmd = CMD_LEN_CMP then
        (sumLengths files .slave 0 message.fds).bind fun size =>
          (bytesInt rest).map fun cmp =>
            (if signed cmp ≠ size.1 then slave.stop (-ERANGE) else slave, size.2, none)
      else if cmd = CMD_JOIN then
        match files.openTmpfile .slave with
        | none => some (slave.stop (-1), files, none)
        | some (outfd, files) =>
            (joinFds outfd message.fds files).map fun joined =>
              if joined.1 then
                let replied :=
                  reply slave (joined.2.lseek .slave outfd 0 .seekSet).2 ⟨[CMD_JOIN], [outfd]⟩
                (replied.1, (replied.2.1.close .slave outfd).2, replied.2.2)
              else (slave.stop (- EIO), joined.2, none)
      else
        some (slave.stop (-EINVAL), files, none)

@[simp] theorem reply_cons (slave : UnixSocketTestSlave) (files : Files) (cmd : UInt8)
    (bytes : List UInt8) (fds : List Fd) :
    reply slave files ⟨cmd :: bytes, fds⟩ = (slave, files, some ⟨cmd :: bytes, fds⟩) := by
  simp [reply, send]

/-! ## Copying files -/

end UnixSocketTestSlave

/-- The description once the copy loop of `CMD_JOIN` has read it to the end of its file. -/
def OpenFile.readToEnd (file : OpenFile) : OpenFile :=
  { file with offset := max file.offset file.data.length }

namespace UnixSocketTestSlave

/-- The copy loop on a descriptor of another description than `outfd`'s, both held, with
`outfd` at the end of its file: given one pass more than there are bytes to read, it moves
the unread bytes of `fd` to the end of `outfd`, in reads of at most 32 bytes, and leaves
`fd` read to its end. -/
theorem copyFd_step {outfd fd : Fd} (distinct : fd ≠ outfd) (fuel : Nat) :
    ∀ (files : Files) (src dst : OpenFile), files.find .slave fd = some src →
      files.find .slave outfd = some dst → dst.offset = dst.data.length →
      src.data.length - src.offset < fuel →
      copyFd outfd fd fuel files = some (true, (files.set fd src.readToEnd).set outfd
        ⟨dst.data ++ src.data.drop src.offset, dst.data.length + (src.data.length - src.offset)⟩) := by
  induction fuel with
  | zero => intro _ _ _ _ _ _ enough; omega
  | succ fuel inductionHypothesis =>
      intro files src dst found target atEnd enough
      have kept : ∀ file : OpenFile, (files.set fd file).find .slave outfd = some dst := fun file => by
        rw [Files.find_set_of_ne _ _ _ _ (Ne.symm distinct), target]
      have ended : src.readToEnd = { src with offset := src.offset + (src.data.length - src.offset) } := by
        simp only [OpenFile.readToEnd, OpenFile.mk.injEq, true_and]
        omega
      rw [copyFd, Files.read_of_find found]
      dsimp only
      by_cases exhausted : src.data.length ≤ src.offset
      · have nothing : src.data.drop src.offset = [] := List.drop_eq_nil_of_le exhausted
        have same : (⟨dst.data, dst.data.length⟩ : OpenFile) = dst := by rw [← atEnd]
        have targetGet := ((files.set fd _).find_eq_some _).1 (kept { src with offset := src.offset })
        simp [nothing, Nat.sub_eq_zero_of_le exhausted, same, ended, Files.set_of_get _ _ _ targetGet.2]
      · set chunk := (src.data.drop src.offset).take 32 with chunkEq
        have bounded : 0 < chunk.length ∧ chunk.length ≤ src.data.length - src.offset := by
          simp only [chunkEq, List.length_take, List.length_drop]
          omega
        have rest : chunk ++ src.data.drop (src.offset + chunk.length) = src.data.drop src.offset := by
          have whole : (src.data.drop src.offset).drop chunk.length = (src.data.drop src.offset).drop 32 := by
            rw [chunkEq, List.length_take]
            rcases Nat.le_total 32 (src.data.drop src.offset).length with fits | short
            · rw [Nat.min_eq_left fits]
            · rw [Nat.min_eq_right short, List.drop_eq_nil_of_le short, List.drop_eq_nil_of_le le_rfl]
          rw [← List.drop_drop, whole, chunkEq, List.take_append_drop]
        rw [if_neg (by omega), if_neg (by omega), Files.write_at_end (kept _) atEnd]
        dsimp only
        rw [if_neg (by omega), inductionHypothesis _ { src with offset := src.offset + chunk.length }
          ⟨dst.data ++ chunk, dst.data.length + chunk.length⟩
          (by rw [Files.find_set_of_ne _ _ _ _ distinct, Files.find_set_self _ _ _ _ found])
          (Files.find_set_self _ _ _ _ (kept _)) (by simp) (by dsimp only; omega)]
        have offsetEq : max (src.offset + chunk.length) src.data.length = max src.offset src.data.length := by
          omega
        have lengthEq : (dst.data ++ chunk).length + (src.data.length - (src.offset + chunk.length)) =
            dst.data.length + (src.data.length - src.offset) := by
          rw [List.length_append]
          omega
        simp only [OpenFile.readToEnd] at offsetEq ⊢
        rw [Files.set_set_set_set _ _ _ distinct, offsetEq, lengthEq, List.append_assoc, rest]

/-- Whatever `fd` is, the copy loop given one pass more than `fd` has bytes to read ends,
and leaves the description of `outfd` at the end of its file: a read or a write through a
descriptor the slave does not hold fails, and `outfd` itself has nothing left to read. -/
theorem copyFd_of_fuel {outfd : Fd} {dst : OpenFile} (fd : Fd) (files : Files)
    (target : files.get outfd = some dst) (atEnd : dst.offset = dst.data.length) :
    ∃ ok after dst', copyFd outfd fd ((unread files fd).length + 1) files = some (ok, after) ∧
      after.get outfd = some dst' ∧ dst'.offset = dst'.data.length := by
  by_cases same : fd = outfd
  · subst same
    have nothing : dst.data.drop dst.offset = [] := List.drop_eq_nil_of_le (by omega)
    have unchanged : ({ dst with offset := dst.offset + 0 } : OpenFile) = dst := rfl
    by_cases holds : fd ∈ files.held .slave
    · have found : files.find .slave fd = some dst := by rw [Files.find_of_held _ _ holds, target]
      refine ⟨true, files, dst, ?_, target, atEnd⟩
      simp [copyFd, unread, target, Files.read_of_find found, nothing, unchanged,
        Files.set_of_get _ _ _ target]
    · exact ⟨false, files, dst, by simp [copyFd, Files.read_of_none (Files.find_of_not_held _ _ holds)],
        target, atEnd⟩
  · cases found : files.find .slave fd with
    | none => exact ⟨false, files, dst, by simp [copyFd, Files.read_of_none found], target, atEnd⟩
    | some src =>
        have srcGet := ((files.find_eq_some _).1 found).2
        have fuel : (unread files fd).length = src.data.length - src.offset := by
          simp [unread, srcGet]
        by_cases holds : outfd ∈ files.held .slave
        · have targetFind : files.find .slave outfd = some dst := by
            rw [Files.find_of_held _ _ holds, target]
          exact ⟨true, _, _, copyFd_step same _ files src dst found targetFind atEnd (by omega),
            (files.set fd _).get_set_self outfd _ (by rw [files.get_set_of_ne _ _ _ (Ne.symm same), target]),
            by simp⟩
        · have outfdNone : ∀ file : OpenFile, (files.set fd file).find .slave outfd = none :=
            fun file => Files.find_of_not_held _ _ (by rw [Files.held_set]; exact holds)
          have kept : ∀ file : OpenFile, (files.set fd file).get outfd = some dst := fun file => by
            rw [files.get_set_of_ne _ _ _ (Ne.symm same), target]
          have writeFails : ∀ (file : OpenFile) (bytes : List UInt8),
              (files.set fd file).write .slave outfd bytes = (-1, files.set fd file) :=
            fun file bytes => by simp [Files.write, outfdNone]
          rw [fuel, copyFd, Files.read_of_find found]
          dsimp only
          rw [writeFails]
          split_ifs
          · exact ⟨false, _, dst, rfl, kept _, atEnd⟩
          · exact ⟨true, _, dst, rfl, kept _, atEnd⟩
          · exact ⟨false, _, dst, rfl, kept _, atEnd⟩
          · simp at *

/-- The loops of `CMD_JOIN` never run out of fuel while `outfd` is at the end of its file,
as the new file is. -/
theorem joinFds_isSome (outfd : Fd) (fds : List Fd) :
    ∀ (files : Files) (dst : OpenFile), files.get outfd = some dst →
      dst.offset = dst.data.length → (joinFds outfd fds files).isSome := by
  induction fds with
  | nil => simp [joinFds]
  | cons fd rest inductionHypothesis =>
      intro files dst target atEnd
      obtain ⟨ok, copiedFiles, copiedDst, copied, copiedTarget, copiedAtEnd⟩ :=
        copyFd_of_fuel fd files target atEnd
      cases ok
      · simp [joinFds, copied]
      · simp only [joinFds, copied]
        refine inductionHypothesis _ copiedDst ?_ copiedAtEnd
        unfold Files.close
        split <;> simp [copiedTarget]

/-! ## What each command does -/

section Commands

variable (slave : UnixSocketTestSlave) (files : Files) {message : Payload} {rest : List UInt8}

theorem readyRead_close (command : message.data = CMD_CLOSE :: rest) :
    slave.readyRead files message = some (slave.stop 0, receive files .slave message, none) := by
  simp [readyRead, command]

theorem readyRead_reverse (command : message.data = CMD_REVERSE :: rest) :
    slave.readyRead files message =
      some (slave, receive files .slave message, some ⟨CMD_REVERSE :: rest.reverse, []⟩) := by
  simp [readyRead, command, CMD_CLOSE, CMD_REVERSE]

theorem readyRead_lenCalc (command : message.data = CMD_LEN_CALC :: rest) :
    slave.readyRead files message = (sumLengths (receive files .slave message) .slave 0 message.fds).map
      fun size => (slave, size.2, some ⟨CMD_LEN_CALC :: intBytes (toInt32 size.1), []⟩) := by
  simp [readyRead, command, CMD_CLOSE, CMD_REVERSE, CMD_LEN_CALC]

theorem readyRead_lenCmp (command : message.data = CMD_LEN_CMP :: rest) :
    slave.readyRead files message =
      (sumLengths (receive files .slave message) .slave 0 message.fds).bind fun size =>
        (bytesInt rest).map fun cmp =>
          (if signed cmp ≠ size.1 then slave.stop (-ERANGE) else slave, size.2, none) := by
  simp [readyRead, command, CMD_CLOSE, CMD_REVERSE, CMD_LEN_CALC, CMD_LEN_CMP]

/-- `CMD_JOIN` where `/tmp` supports `O_TMPFILE`: the copy loops into a new file, then, when
they succeed, the reply with its descriptor, rewound, and the close of that descriptor. -/
theorem readyRead_join (command : message.data = CMD_JOIN :: rest)
    (supported : files.tmpfileSupported = true) :
    slave.readyRead files message =
      let created := (receive files .slave message).create .slave ⟨[], 0⟩
      (joinFds created.1 message.fds created.2).map fun joined =>
        if joined.1 then
          (slave, (((joined.2.lseek .slave created.1 0 .seekSet).2).close .slave created.1).2,
            some ⟨[CMD_JOIN], [created.1]⟩)
        else (slave.stop (- EIO), joined.2, none) := by
  simp [readyRead, command, CMD_CLOSE, CMD_REVERSE, CMD_LEN_CALC, CMD_LEN_CMP, CMD_JOIN,
    Files.openTmpfile_of_supported (show (receive files .slave message).tmpfileSupported = true by
      simp [receive, supported])]

/-- `CMD_JOIN` never has undefined behaviour: the copy loops into the new file always end. -/
theorem readyRead_join_isSome (command : message.data = CMD_JOIN :: rest) :
    (slave.readyRead files message).isSome := by
  by_cases supported : files.tmpfileSupported = true
  · rw [readyRead_join slave files command supported, Option.isSome_map']
    exact joinFds_isSome _ _ _ ⟨[], 0⟩ (by rw [Files.get_create, if_pos rfl]) rfl
  · simp [readyRead, command, CMD_CLOSE, CMD_REVERSE, CMD_LEN_CALC, CMD_LEN_CMP, CMD_JOIN,
      Files.openTmpfile, receive, supported]

/-- Everything `readyRead` may do with a message it handles, one case for each branch of its
`switch`, `CMD_JOIN` split on whether `/tmp` supports `O_TMPFILE`. -/
theorem readyRead_cases {result : UnixSocketTestSlave × Files × Option Payload}
    (handled : slave.readyRead files message = some result) :
    ∃ cmd rest, message.data = cmd :: rest ∧
      (cmd = CMD_CLOSE ∧ result = (slave.stop 0, receive files .slave message, none) ∨
      cmd = CMD_REVERSE ∧
        result = (slave, receive files .slave message, some ⟨CMD_REVERSE :: rest.reverse, []⟩) ∨
      cmd = CMD_LEN_CALC ∧ (∃ size, sumLengths (receive files .slave message) .slave 0 message.fds = some size ∧
        result = (slave, size.2, some ⟨CMD_LEN_CALC :: intBytes (toInt32 size.1), []⟩)) ∨
      cmd = CMD_LEN_CMP ∧ (∃ size cmp,
        sumLengths (receive files .slave message) .slave 0 message.fds = some size ∧ bytesInt rest = some cmp ∧
        result = (if signed cmp ≠ size.1 then slave.stop (-ERANGE) else slave, size.2, none)) ∨
      cmd = CMD_JOIN ∧ files.tmpfileSupported = false ∧
        result = (slave.stop (-1), receive files .slave message, none) ∨
      cmd = CMD_JOIN ∧ (∃ outfd created joined, files.tmpfileSupported = true ∧
        (receive files .slave message).create .slave ⟨[], 0⟩ = (outfd, created) ∧
        joinFds outfd message.fds created = some joined ∧
        result = (if joined.1 then
            (slave, ((joined.2.lseek .slave outfd 0 .seekSet).2.close .slave outfd).2, some ⟨[CMD_JOIN], [outfd]⟩)
          else (slave.stop (- EIO), joined.2, none))) ∨
      cmd ∉ [CMD_CLOSE, CMD_REVERSE, CMD_LEN_CALC, CMD_LEN_CMP, CMD_JOIN] ∧
        result = (slave.stop (-EINVAL), receive files .slave message, none)) := by
  cases data : message.data with
  | nil => simp [readyRead, data] at handled
  | cons cmd rest =>
      refine ⟨cmd, rest, rfl, ?_⟩
      by_cases close : cmd = CMD_CLOSE
      · subst close
        rw [readyRead_close slave files data] at handled
        exact .inl ⟨rfl, (Option.some.inj handled).symm⟩
      by_cases reverse : cmd = CMD_REVERSE
      · subst reverse
        rw [readyRead_reverse slave files data] at handled
        exact .inr <| .inl ⟨rfl, (Option.some.inj handled).symm⟩
      by_cases lenCalc : cmd = CMD_LEN_CALC
      · subst lenCalc
        obtain ⟨size, summed, rfl⟩ := Option.map_eq_some'.1 ((readyRead_lenCalc slave files data).symm.trans handled)
        exact .inr <| .inr <| .inl ⟨rfl, size, summed, rfl⟩
      by_cases compare : cmd = CMD_LEN_CMP
      · subst compare
        obtain ⟨size, summed, handled⟩ :=
          Option.bind_eq_some.1 ((readyRead_lenCmp slave files data).symm.trans handled)
        obtain ⟨cmp, read, rfl⟩ := Option.map_eq_some'.1 handled
        exact .inr <| .inr <| .inr <| .inl ⟨rfl, size, cmp, summed, read, rfl⟩
      by_cases join : cmd = CMD_JOIN
      · subst join
        cases supported : files.tmpfileSupported
        · have unsupported : (receive files .slave message).openTmpfile .slave = none := by
            simp [Files.openTmpfile, receive, supported]
          simp only [readyRead, data, if_neg close, if_neg reverse, if_neg lenCalc, if_neg compare,
            if_pos rfl, unsupported] at handled
          exact .inr <| .inr <| .inr <| .inr <| .inl ⟨rfl, rfl, (Option.some.inj handled).symm⟩
        · obtain ⟨joined, loop, rfl⟩ :=
            Option.map_eq_some'.1 ((readyRead_join slave files data supported).symm.trans handled)
          exact .inr <| .inr <| .inr <| .inr <| .inr <| .inl ⟨rfl, _, _, joined, rfl, rfl, loop, rfl⟩
      · simp only [readyRead, data, if_neg close, if_neg reverse, if_neg lenCalc, if_neg compare,
          if_neg join] at handled
        exact .inr <| .inr <| .inr <| .inr <| .inr <| .inr
          ⟨by simp [close, reverse, lenCalc, compare, join], (Option.some.inj handled).symm⟩

end Commands

end UnixSocketTestSlave

end Libcamera.Ipc
