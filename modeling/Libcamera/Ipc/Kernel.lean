import Libcamera.Errno
import Mathlib.Data.List.Basic
import Mathlib.Algebra.Group.Int

/-!
Contract: the kernel objects that `test/ipc/unixsocket.cpp` reaches through system calls:
open file descriptions, the descriptor table of each of the test's two processes, and the
messages carried by the socket pair that `IPCUnixSocket` wraps.

Owns: `lseek`, `read`, `write`, `close`, `dup` and the two `open` calls the test makes, each
returning -1 on failure as the C library does; and, modelled from the spec because
`ipc_unixsocket.cpp` is not among the sources, `IPCUnixSocket::Payload`,
`IPCUnixSocket::send`, and the descriptors that `IPCUnixSocket::receive` installs.

Does not own: access modes and full file systems, so a write through a descriptor the
process holds succeeds; running out of descriptors, so `dup` of a descriptor the process
holds succeeds; a failure to open `/proc/self/exe`; the header that frames a message on the
socket.

A descriptor is known by the open file description it refers to, numbered in the order the
descriptions were created. A process's descriptor table lists the description of each of its
descriptors: `open`, `dup` and receiving a message add entries, and `close` removes one.
Every read, write and `lseek` goes to the description, so two descriptors of one
description share its offset; a call through a descriptor the process does not hold fails.
A description outlives its last descriptor, but no call reaches it again.
-/

set_option autoImplicit false

namespace Libcamera.Ipc

/-- The test's two processes. -/
inductive Process where
  | master
  | slave
deriving DecidableEq, Repr

/-- A descriptor, known by the open file description it refers to. -/
structure Fd where
  description : Nat
deriving DecidableEq, Repr

/-- An open file description: the bytes of its file and the offset of the next read or
write. -/
structure OpenFile where
  data : List UInt8
  offset : Nat
deriving DecidableEq, Repr

/-- The part of the kernel the test reaches through descriptors: the open file descriptions
in the order they were created, the descriptor table of each process, the bytes of
`/proc/self/exe` (the test's executable), and whether the file system of `/tmp` supports
`O_TMPFILE`. -/
structure Files where
  descriptions : List OpenFile
  masterFds : List Fd
  slaveFds : List Fd
  exe : List UInt8
  tmpfileSupported : Bool
deriving DecidableEq, Repr

/-- `whence` of `lseek`: `SEEK_SET` or `SEEK_END`. -/
inductive Whence where
  | seekSet
  | seekEnd
deriving DecidableEq, Repr

namespace Files

/-- The description `fd` refers to; `none` when no description has that number. -/
def get (files : Files) (fd : Fd) : Option OpenFile :=
  files.descriptions[fd.description]?

/-- The kernel with the description of `fd` replaced. -/
def set (files : Files) (fd : Fd) (file : OpenFile) : Files :=
  { files with descriptions := files.descriptions.set fd.description file }

/-- A new description of `file`, and the kernel after. -/
def push (files : Files) (file : OpenFile) : Fd × Files :=
  (⟨files.descriptions.length⟩, { files with descriptions := files.descriptions ++ [file] })

/-- The descriptor table of `process`. -/
def held (files : Files) : Process → List Fd
  | .master => files.masterFds
  | .slave => files.slaveFds

/-- The kernel with the descriptor table of `process` replaced. -/
def setHeld (files : Files) : Process → List Fd → Files
  | .master, fds => { files with masterFds := fds }
  | .slave, fds => { files with slaveFds := fds }

/-- One new descriptor in `process` for each of `fds`. -/
def hold (files : Files) (process : Process) (fds : List Fd) : Files :=
  files.setHeld process (files.held process ++ fds)

/-- The description `process` reaches through `fd`; `none` when it holds no such
descriptor. -/
def find (files : Files) (process : Process) (fd : Fd) : Option OpenFile :=
  if fd ∈ files.held process then files.get fd else none

/-- A new description of `file`, with a descriptor of it in `process`. -/
def create (files : Files) (process : Process) (file : OpenFile) : Fd × Files :=
  ((files.push file).1, (files.push file).2.hold process [(files.push file).1])

/-- `lseek(fd, offset, whence)` in `process`: the new offset, or -1 when `fd` is not open. -/
def lseek (files : Files) (process : Process) (fd : Fd) (offset : Nat) (whence : Whence) :
    Int × Files :=
  match files.find process fd with
  | none => (-1, files)
  | some file =>
      let position : Nat := match whence with
        | .seekSet => offset
        | .seekEnd => file.data.length + offset
      (position, files.set fd { file with offset := position })

/-- `read(fd, buf, count)` in `process`: the number of bytes read, or -1 when `fd` is not
open; the bytes read; and the kernel after. -/
def read (files : Files) (process : Process) (fd : Fd) (count : Nat) : Int × List UInt8 × Files :=
  match files.find process fd with
  | none => (-1, [], files)
  | some file =>
      let bytes := (file.data.drop file.offset).take count
      (bytes.length, bytes, files.set fd { file with offset := file.offset + bytes.length })

/-- `write(fd, buf, count)` in `process` of the `count` bytes `bytes`: `count`, or -1 when
`fd` is not open. A write past the end of the file fills the gap with zeros. -/
def write (files : Files) (process : Process) (fd : Fd) (bytes : List UInt8) : Int × Files :=
  match files.find process fd with
  | none => (-1, files)
  | some file =>
      (bytes.length, files.set fd
        ⟨file.data.take file.offset ++ List.replicate (file.offset - file.data.length) 0 ++
          bytes ++ file.data.drop (file.offset + bytes.length), file.offset + bytes.length⟩)

/-- `close(fd)` in `process`: 0, or -1 when `fd` is not open. -/
def close (files : Files) (process : Process) (fd : Fd) : Int × Files :=
  if fd ∈ files.held process then (0, files.setHeld process ((files.held process).erase fd))
  else (-1, files)

/-- `dup(fd)` in `process`: a new descriptor of the same description; `none` when the call
returns -1, as it does when `fd` is not open. -/
def dup (files : Files) (process : Process) (fd : Fd) : Option (Fd × Files) :=
  if fd ∈ files.held process then some (fd, files.hold process [fd]) else none

/-- `open("/tmp", O_TMPFILE | O_RDWR, S_IRUSR | S_IWUSR)` in `process`: a new empty file;
`none` when the call returns -1. -/
def openTmpfile (files : Files) (process : Process) : Option (Fd × Files) :=
  if files.tmpfileSupported then some (files.create process ⟨[], 0⟩) else none

/-- `open("/proc/self/exe", O_RDONLY)` in `process`. -/
def openExe (files : Files) (process : Process) : Fd × Files :=
  files.create process ⟨files.exe, 0⟩

/-! ## The table of descriptions -/

section Table

variable (files : Files) (fd other : Fd) (file : OpenFile)

theorem description_lt_of_get {file : OpenFile} (found : files.get fd = some file) :
    fd.description < files.descriptions.length := by
  by_contra beyond
  rw [get, List.getElem?_eq_none (Nat.le_of_not_lt beyond)] at found
  cases found

theorem get_set {old : OpenFile} (found : files.get fd = some old) :
    (files.set fd file).get other = if other = fd then some file else files.get other := by
  have valid := files.description_lt_of_get fd found
  by_cases same : other = fd
  · subst same
    simp [get, set, valid]
  · have distinct : fd.description ≠ other.description := fun equal => same (by
      cases fd; cases other; simp_all)
    simp [get, set, same, List.getElem?_set_ne distinct]

theorem get_set_self {old : OpenFile} (found : files.get fd = some old) :
    (files.set fd file).get fd = some file := by
  rw [files.get_set fd fd file found, if_pos rfl]

theorem get_set_of_ne (distinct : other ≠ fd) : (files.set fd file).get other = files.get other := by
  have differ : fd.description ≠ other.description := fun equal => distinct (by
    cases fd; cases other; simp_all)
  simp [get, set, List.getElem?_set_ne differ]

theorem set_of_get (found : files.get fd = some file) : files.set fd file = files := by
  have valid := files.description_lt_of_get fd found
  cases files
  simp only [set, Files.mk.injEq, and_true]
  apply List.ext_getElem?
  intro index
  by_cases same : fd.description = index
  · subst same
    simpa [List.getElem?_set_self valid] using found.symm
  · exact List.getElem?_set_ne same

theorem set_set (first second : OpenFile) :
    (files.set fd first).set fd second = files.set fd second := by
  simp [set, List.set_set]

theorem set_comm (distinct : fd ≠ other) (first second : OpenFile) :
    (files.set fd first).set other second = (files.set other second).set fd first := by
  have differ : fd.description ≠ other.description := fun equal => distinct (by
    cases fd; cases other; simp_all)
  simp [set, List.set_comm _ _ _ differ]

/-- Two writes to each of two descriptions leave the second write to each. -/
theorem set_set_set_set (distinct : fd ≠ other) (first second third fourth : OpenFile) :
    (((files.set fd first).set other second).set fd third).set other fourth =
      (files.set fd third).set other fourth := by
  rw [(files.set fd first).set_comm other fd (Ne.symm distinct) second third, set_set, set_set]

theorem get_push :
    (files.push file).2.get other =
      if other = (files.push file).1 then some file else files.get other := by
  by_cases same : other = (files.push file).1
  · subst same
    simp [get, push]
  · have differ : other.description ≠ files.descriptions.length := fun equal => same (by
      cases other; simp_all [push])
    rw [if_neg same]
    simp only [get, push]
    rcases Nat.lt_or_ge other.description files.descriptions.length with inside | outside
    · exact List.getElem?_append_left inside
    · rw [List.getElem?_append_right outside, List.getElem?_eq_none (by simp at outside ⊢; omega),
        List.getElem?_eq_none outside]

/-- A new description is not one that existed. -/
theorem push_ne_of_get {fd : Fd} (opened : files.get fd ≠ none) : (files.push file).1 ≠ fd :=
  fun same => by
    obtain ⟨found, foundEq⟩ := Option.ne_none_iff_exists'.1 opened
    have inside := files.description_lt_of_get fd foundEq
    rw [← same] at inside
    exact Nat.lt_irrefl _ inside

theorem get_push_self : (files.push file).2.get (files.push file).1 = some file := by
  rw [get_push, if_pos rfl]

theorem get_push_fst : files.get (files.push file).1 = none := by
  simp [get, push]

@[simp] theorem set_exe : (files.set fd file).exe = files.exe := rfl

@[simp] theorem set_tmpfileSupported : (files.set fd file).tmpfileSupported = files.tmpfileSupported :=
  rfl

@[simp] theorem length_set :
    (files.set fd file).descriptions.length = files.descriptions.length := by
  simp [set]

@[simp] theorem push_exe : (files.push file).2.exe = files.exe := rfl

@[simp] theorem push_tmpfileSupported :
    (files.push file).2.tmpfileSupported = files.tmpfileSupported := rfl

end Table

/-! ## The descriptor tables -/

section Tables

variable (files : Files) (process : Process) (fd : Fd) (fds : List Fd) (file : OpenFile)

@[simp] theorem held_set : (files.set fd file).held process = files.held process := by
  cases process <;> rfl

@[simp] theorem held_push : (files.push file).2.held process = files.held process := by
  cases process <;> rfl

@[simp] theorem held_setHeld : (files.setHeld process fds).held process = fds := by
  cases process <;> rfl

theorem held_setHeld_of_ne {other : Process} (distinct : other ≠ process) :
    (files.setHeld process fds).held other = files.held other := by
  cases process <;> cases other <;> first | rfl | exact absurd rfl distinct

@[simp] theorem get_setHeld : (files.setHeld process fds).get fd = files.get fd := by
  cases process <;> rfl

@[simp] theorem setHeld_descriptions :
    (files.setHeld process fds).descriptions = files.descriptions := by
  cases process <;> rfl

@[simp] theorem setHeld_exe : (files.setHeld process fds).exe = files.exe := by
  cases process <;> rfl

@[simp] theorem setHeld_tmpfileSupported :
    (files.setHeld process fds).tmpfileSupported = files.tmpfileSupported := by
  cases process <;> rfl

@[simp] theorem held_hold : (files.hold process fds).held process = files.held process ++ fds :=
  held_setHeld _ _ _

@[simp] theorem get_hold : (files.hold process fds).get fd = files.get fd :=
  get_setHeld _ _ _ _

@[simp] theorem hold_descriptions : (files.hold process fds).descriptions = files.descriptions :=
  setHeld_descriptions _ _ _

@[simp] theorem hold_exe : (files.hold process fds).exe = files.exe :=
  setHeld_exe _ _ _

@[simp] theorem hold_tmpfileSupported :
    (files.hold process fds).tmpfileSupported = files.tmpfileSupported :=
  setHeld_tmpfileSupported _ _ _

theorem hold_nil : files.hold process [] = files := by
  cases process <;> simp [hold, setHeld, held]

/-- A table change and a change of a description commute. -/
theorem hold_hold (more : List Fd) :
    (files.hold process fds).hold process more = files.hold process (fds ++ more) := by
  cases process <;> simp [hold, setHeld, held, List.append_assoc]

theorem setHeld_set : (files.setHeld process fds).set fd file = (files.set fd file).setHeld process fds := by
  cases process <;> rfl

theorem hold_set : (files.hold process fds).set fd file = (files.set fd file).hold process fds := by
  rw [hold, hold, held_set, setHeld_set]

theorem find_of_held {fd : Fd} (holds : fd ∈ files.held process) : files.find process fd = files.get fd :=
  if_pos holds

theorem find_of_not_held {fd : Fd} (absent : fd ∉ files.held process) : files.find process fd = none :=
  if_neg absent

theorem find_eq_some {fd : Fd} {file : OpenFile} :
    files.find process fd = some file ↔ fd ∈ files.held process ∧ files.get fd = some file := by
  unfold find
  split <;> simp_all

theorem find_set_of_ne {other : Fd} (distinct : other ≠ fd) :
    (files.set fd file).find process other = files.find process other := by
  simp only [find, held_set, get_set_of_ne _ _ _ _ distinct]

theorem find_set_self {old : OpenFile} (found : files.find process fd = some old) :
    (files.set fd file).find process fd = some file := by
  rw [find_eq_some] at found ⊢
  exact ⟨by rw [held_set]; exact found.1, files.get_set_self fd file found.2⟩

theorem find_setHeld {other : Fd} {fds : List Fd} (holds : other ∈ fds) :
    (files.setHeld process fds).find process other = files.get other := by
  rw [find_of_held _ _ (by rw [held_setHeld]; exact holds), get_setHeld]

@[simp] theorem create_fst : (files.create process file).1 = (files.push file).1 := rfl

theorem get_create (other : Fd) :
    (files.create process file).2.get other =
      if other = (files.create process file).1 then some file else files.get other := by
  rw [create, get_hold, get_push]

theorem find_create_self : (files.create process file).2.find process (files.create process file).1 =
    some file := by
  rw [find_of_held _ _ (by simp [create]), get_create, if_pos rfl]

@[simp] theorem create_exe : (files.create process file).2.exe = files.exe := by
  simp [create]

@[simp] theorem create_tmpfileSupported :
    (files.create process file).2.tmpfileSupported = files.tmpfileSupported := by
  simp [create]

end Tables

/-! ## System calls -/

section Calls

variable {files : Files} {process : Process} {fd : Fd} {file : OpenFile}

theorem lseek_seekSet (found : files.find process fd = some file) (offset : Nat) :
    files.lseek process fd offset .seekSet = ((offset : Int), files.set fd { file with offset }) := by
  simp [lseek, found]

theorem lseek_seekEnd (found : files.find process fd = some file) (offset : Nat) :
    files.lseek process fd offset .seekEnd =
      (((file.data.length + offset : Nat) : Int),
        files.set fd { file with offset := file.data.length + offset }) := by
  simp [lseek, found]

theorem lseek_of_none (closed : files.find process fd = none) (offset : Nat) (whence : Whence) :
    files.lseek process fd offset whence = (-1, files) := by
  simp [lseek, closed]

theorem read_of_find (found : files.find process fd = some file) (count : Nat) :
    files.read process fd count = ((((file.data.drop file.offset).take count).length : Int),
      (file.data.drop file.offset).take count,
      files.set fd { file with offset := file.offset + ((file.data.drop file.offset).take count).length }) := by
  simp only [read, found]

theorem read_of_none (closed : files.find process fd = none) (count : Nat) :
    files.read process fd count = (-1, [], files) := by
  simp [read, closed]

/-- A write at the end of a file appends to it. -/
theorem write_at_end (found : files.find process fd = some file)
    (atEnd : file.offset = file.data.length) (bytes : List UInt8) :
    files.write process fd bytes = ((bytes.length : Int),
      files.set fd ⟨file.data ++ bytes, file.data.length + bytes.length⟩) := by
  simp [write, found, atEnd, List.drop_eq_nil_of_le]

theorem openTmpfile_of_supported (supported : files.tmpfileSupported = true) :
    files.openTmpfile process = some (files.create process ⟨[], 0⟩) := by
  simp [openTmpfile, supported]

theorem close_of_held (holds : fd ∈ files.held process) :
    files.close process fd = (0, files.setHeld process ((files.held process).erase fd)) :=
  if_pos holds

theorem dup_of_held (holds : fd ∈ files.held process) :
    files.dup process fd = some (fd, files.hold process [fd]) :=
  if_pos holds

end Calls

end Files

namespace IPCUnixSocket

/-- Modelled from the spec: `IPCUnixSocket::Payload`, the bytes of a message and the
descriptors sent with it. -/
structure Payload where
  data : List UInt8
  fds : List Fd
deriving DecidableEq, Repr

/-- Modelled from the spec: `IPCUnixSocket::send(payload)` on a bound socket. A payload
with no bytes and no descriptors is refused with -EINVAL and does not reach the peer;
any other is sent, the call returns 0, and the peer receives the payload after every
message sent before it. -/
def send (payload : Payload) : Int × Option Payload :=
  if payload.data = [] ∧ payload.fds = [] then (-EINVAL, none) else (0, some payload)

/-- Modelled from the spec: `IPCUnixSocket::receive` in `process` of a message sent with
`payload`: a new descriptor in `process` for each descriptor the message carries. -/
def receive (files : Files) (process : Process) (payload : Payload) : Files :=
  files.hold process payload.fds

theorem receive_of_nil {files : Files} {process : Process} {payload : Payload}
    (noFds : payload.fds = []) : receive files process payload = files := by
  rw [receive, noFds, Files.hold_nil]

end IPCUnixSocket

end Libcamera.Ipc
