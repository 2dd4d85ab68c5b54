import Libcamera.Ipc.UnixSocketTest
import Libcamera.Ipc.Commands

/-!
Contract: the exchange of `testFdOrder` in `test/ipc/unixsocket.cpp` for any strings in
place of "Foo" and "Bar": the master writes each string to a new file, the slave's
`CMD_JOIN` joins the files, and the master reads the strings back from the joined file.

Owns: the loops of `testFdOrder` (`writeStrings`, `readStrings`) for any strings; `CMD_JOIN`
on distinct descriptors; and the round trip through the slave, which passes exactly when
no string is empty.

Does not own: the socket between the two processes, which carries the message and the
reply unchanged (`Libcamera.Ipc.UnixSocketTest`); the test's run with its two strings, which
`Libcamera.Ipc.TestRun` follows step by step.

A read of 0 bytes returns 0, which `testFdOrder` takes for a failed read: an empty string
makes the check fail even though the joined file holds everything the master wrote.
-/

set_option autoImplicit false

namespace Libcamera.Ipc

open IPCUnixSocket

namespace UnixSocketTest

/-- A new description holding `file`, as `open` and `write` in the master leave it: every
description open before is as it was. -/
theorem get_written (files : Files) (file : OpenFile) (fd : Fd) :
    ((files.create .master ⟨[], 0⟩).2.set (files.create .master ⟨[], 0⟩).1 file).get fd =
      if fd = (files.create .master ⟨[], 0⟩).1 then some file else files.get fd := by
  rw [Files.get_set _ _ _ _ (by rw [Files.get_create, if_pos rfl]), Files.get_create]
  split_ifs <;> rfl

/-- One pass of the `open`, `write`, `lseek` loop of `testFdOrder`, where `/tmp` supports
`O_TMPFILE`: a new description holding `string`, rewound, held by the master. -/
theorem writeStrings_cons {files : Files} (supported : files.tmpfileSupported = true)
    (string : List UInt8) (rest : List (List UInt8)) :
    writeStrings files (string :: rest) =
      let created := files.create .master ⟨[], 0⟩
      let later := writeStrings (created.2.set created.1 ⟨string, 0⟩) rest
      (later.1.map (created.1 :: ·), later.2) := by
  have empty := Files.find_create_self files .master ⟨[], 0⟩
  have written := Files.write_at_end empty rfl string
  simp only [List.nil_append, List.length_nil, Nat.zero_add] at written
  have nonneg : ¬(string.length : Int) < 0 := by omega
  simp only [writeStrings, nonneg, if_false, Files.openTmpfile_of_supported supported, written,
    Files.lseek_seekSet (Files.find_set_self _ _ _ _ empty), Files.set_set]

/-- The `open`, `write`, `lseek` loop of `testFdOrder`, where `/tmp` supports `O_TMPFILE`, for
any strings: one new description for each string, holding it, rewound, in the order of the
strings, and a descriptor of each in the master; every description open before is as it
was. -/
theorem writeStrings_fresh (strings : List (List UInt8)) :
    ∀ files : Files, files.tmpfileSupported = true →
      ∃ fds written, writeStrings files strings = (some fds, written) ∧
        fds.map written.get = strings.map (fun string => some ⟨string, 0⟩) ∧
        (∀ fd ∈ fds, files.descriptions.length ≤ fd.description) ∧ fds.Nodup ∧
        written.tmpfileSupported = true ∧ Files.Keeps (fun _ => False) files written ∧
        written.held .master = files.held .master ++ fds := by
  induction strings with
  | nil => exact fun files supported => ⟨[], files, rfl, rfl, by simp, List.nodup_nil, supported,
      .refl _ files, by simp⟩
  | cons string rest inductionHypothesis =>
      intro files supported
      set created := files.create .master ⟨[], 0⟩ with createdEq
      set first := created.2.set created.1 ⟨string, 0⟩ with firstEq
      have firstKeeps : Files.Keeps (· = created.1) files first :=
        ((files.keeps_create .master ⟨[], 0⟩).mono fun _ _ => False.elim).trans
          (Files.keeps_set _ _ _)
      have createdFd : created.1.description = files.descriptions.length := rfl
      have firstLength : first.descriptions.length = files.descriptions.length + 1 := by
        simp [firstEq, createdEq, Files.create, Files.push]
      obtain ⟨fds, written, wrote, contents, fresh, distinct, writtenSupported, keeps, held⟩ :=
        inductionHypothesis first (by
          rw [firstEq, Files.set_tmpfileSupported, createdEq, Files.create_tmpfileSupported]
          exact supported)
      have notLater : created.1 ∉ fds := fun member => by
        have later := fresh _ member
        omega
      refine ⟨created.1 :: fds, written, ?_, ?_, ?_, List.nodup_cons.2 ⟨notLater, distinct⟩,
        writtenSupported, (firstKeeps.trans (keeps.mono fun _ _ => False.elim)).mono
          fun fd inside touched => ?_, ?_⟩
      · rw [writeStrings_cons supported]
        simp only [wrote, Option.map_some']
      · rw [List.map_cons, List.map_cons, contents,
          keeps.get_eq _ (by rw [firstLength, createdFd]; omega) id, get_written, if_pos rfl]
      · intro fd member
        rcases List.mem_cons.1 member with rfl | later
        · exact createdFd.ge
        · have := fresh fd later
          omega
      · rw [touched, createdFd] at inside
        exact absurd inside (Nat.lt_irrefl _)
      · rw [held, firstEq, Files.held_set, createdEq, Files.create, Files.held_hold, Files.held_push,
          List.append_assoc]
        rfl

/-- The read loop of `testFdOrder`, on a description held by the master whose unread bytes
start with the strings, one after the other, closing before each read one of `fds`, none of
them a descriptor of that description: each read returns its whole string, so the loop never
compares bytes it did not read, and it succeeds exactly when no string is empty. -/
theorem readStrings_flatten (joined : Fd) (strings : List (List UInt8)) :
    ∀ (fds : List Fd) (files : Files) (file : OpenFile) (rest : List UInt8),
      strings.length ≤ fds.length → joined ∉ fds → joined ∈ files.held .master →
      files.get joined = some file → file.data.drop file.offset = strings.flatten ++ rest →
      (readStrings joined fds strings files).map Prod.fst =
        some (strings.all fun string => !string.isEmpty) := by
  induction strings with
  | nil => intro fds _ _ _ _ _ _ _ _; cases fds <;> rfl
  | cons string later inductionHypothesis =>
      intro fds files file rest enough absent holds found unread
      obtain ⟨fd, fds, rfl⟩ : ∃ fd others, fds = fd :: others := by
        cases fds with
        | nil => simp at enough
        | cons fd others => exact ⟨fd, others, rfl⟩
      rw [List.mem_cons, not_or] at absent
      set closed := (files.close .master fd).2 with closedEq
      have closedFound : closed.find .master joined = some file := by
        rw [Files.find_of_held _ _ (Files.mem_held_close _ _ _ absent.1 holds), Files.get_close, found]
      have bytes : (file.data.drop file.offset).take string.length = string := by
        rw [unread, List.flatten_cons, List.append_assoc, List.take_left]
      by_cases empty : string = []
      · subst empty
        simp [readStrings, ← closedEq, Files.read_of_find closedFound]
      · have positive : 0 < string.length := List.length_pos.2 empty
        have unreadLater :
            file.data.drop (file.offset + string.length) = later.flatten ++ rest := by
          rw [← List.drop_drop, unread, List.flatten_cons, List.append_assoc, List.drop_left]
        have step := inductionHypothesis fds
          (closed.set joined { file with offset := file.offset + string.length })
          { file with offset := file.offset + string.length } rest
          (Nat.le_of_succ_le_succ enough) absent.2
          (by rw [Files.held_set]; exact Files.mem_held_close _ _ _ absent.1 holds)
          (closed.get_set_self joined _ ((closed.find_eq_some _).1 closedFound).2) unreadLater
        have readEq : readStrings joined (fd :: fds) (string :: later) files = readStrings joined fds
            later (closed.set joined { file with offset := file.offset + string.length }) := by
          simp only [readStrings, ← closedEq, Files.read_of_find closedFound, bytes]
          rw [if_neg (by omega), if_neg (lt_irrefl _), if_neg (not_not.2 rfl)]
        rw [readEq, step]
        simp [empty]

end UnixSocketTest

/-- `CMD_JOIN` on open descriptors of distinct descriptions, where `/tmp` supports
`O_TMPFILE`: the reply's descriptor names a new description whose file holds, rewound, the
unread bytes of each description in the order the message names them. -/
theorem UnixSocketTestSlave.readyRead_join_fresh (slave : UnixSocketTestSlave) {files : Files}
    {fds : List Fd} (supported : files.tmpfileSupported = true)
    (opened : ∀ fd ∈ fds, files.get fd ≠ none) (distinct : fds.Nodup) :
    ∃ joined after, files.get joined = none ∧
      slave.readyRead files ⟨[CMD_JOIN], fds⟩ = some (slave, after, some ⟨[CMD_JOIN], [joined]⟩) ∧
      after.get joined = some ⟨(fds.map (UnixSocketTestSlave.unread files)).flatten, 0⟩ := by
  obtain ⟨outfd, joined, fresh, handled, content, outHeld, -⟩ := readyRead_join_loop slave files
    (show (⟨[CMD_JOIN], fds⟩ : Payload).data = CMD_JOIN :: [] from rfl) supported opened
  refine ⟨outfd, _, fresh, handled, ?_⟩
  rw [Files.get_close, Files.get_lseek_zero _ _ outHeld, if_pos rfl, content]
  simp only [eraseDups_of_nodup distinct]
  rfl

namespace UnixSocketTest

/-- The exchange of `testFdOrder` for any strings, where `/tmp` supports `O_TMPFILE`: the
master writes each string to a new file and sends their descriptors with `CMD_JOIN`; the
slave answers with one new descriptor; and the master, receiving it, closing each file it
wrote and reading each string back in turn, never reads short, and passes exactly when no
string is empty. -/
theorem fdOrder_roundTrip (slave : UnixSocketTestSlave) {files : Files}
    (supported : files.tmpfileSupported = true) (strings : List (List UInt8)) :
    ∃ fds written joined after, writeStrings files strings = (some fds, written) ∧
      slave.readyRead written ⟨[CMD_JOIN], fds⟩ =
        some (slave, after, some ⟨[CMD_JOIN], [joined]⟩) ∧
      (readStrings joined fds strings (receive after .master ⟨[CMD_JOIN], [joined]⟩)).map Prod.fst =
        some (strings.all fun string => !string.isEmpty) := by
  obtain ⟨fds, written, wrote, contents, -, distinct, writtenSupported, -⟩ :=
    writeStrings_fresh strings files supported
  have opened : ∀ fd ∈ fds, written.get fd ≠ none := fun fd member => by
    have listed : written.get fd ∈ strings.map (fun string => some ⟨string, 0⟩) :=
      contents ▸ List.mem_map_of_mem _ member
    obtain ⟨string, -, found⟩ := List.mem_map.1 listed
    rw [← found]
    exact Option.some_ne_none _
  have unreadAll : fds.map (UnixSocketTestSlave.unread written) = strings := by
    have viaGet : fds.map (UnixSocketTestSlave.unread written) =
        (fds.map written.get).map fun found =>
          (found.map fun file => file.data.drop file.offset).getD [] := by
      rw [List.map_map]
      rfl
    rw [viaGet, contents, List.map_map]
    exact (List.map_congr_left fun _ _ => rfl).trans (List.map_id strings)
  have sameLength : fds.length = strings.length := by
    simpa using congrArg List.length contents
  obtain ⟨joined, after, fresh, handled, found⟩ :=
    UnixSocketTestSlave.readyRead_join_fresh slave writtenSupported opened distinct
  rw [unreadAll] at found
  exact ⟨fds, written, joined, after, wrote, handled,
    readStrings_flatten joined strings fds _ _ [] sameLength.ge
      (fun member => opened joined member fresh) (by simp [receive])
      (by rw [receive, Files.get_hold, found]) (by simp)⟩

theorem fdOrder_roundTrip_with_empty :
    ∃ fds written joined after, writeStrings sampleFiles [[70], [], [66]] = (some fds, written) ∧
      UnixSocketTestSlave.new.readyRead written ⟨[CMD_JOIN], fds⟩ =
        some (.new, after, some ⟨[CMD_JOIN], [joined]⟩) ∧
      (readStrings joined fds [[70], [], [66]]
        (receive after .master ⟨[CMD_JOIN], [joined]⟩)).map Prod.fst = some false :=
  fdOrder_roundTrip .new (show sampleFiles.tmpfileSupported = true from rfl) [[70], [], [66]]

end UnixSocketTest

end Libcamera.Ipc
