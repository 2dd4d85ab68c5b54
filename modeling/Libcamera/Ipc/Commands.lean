import Libcamera.Ipc.Slave
import Mathlib.Algebra.Ring.Int.Defs

/-!
Contract: what `UnixSocketTestSlave` does to the kernel for every message a peer may send it,
not only those of the test: descriptors named twice or naming no description, files of any
length, and any sequence of messages handled by the loop of `run()`.

Owns: `Files.Keeps`, which says which descriptions a call may change, with one lemma for each
system call and loop of the slave; the sum that `CMD_LEN_CALC` replies with, and when it
overflows; the file that `CMD_JOIN` builds when the message names a description more than
once; which descriptors the slave holds after each message; `serve`, the loop of
`UnixSocketTestSlave::run()` over the messages that arrive; and, over every such run, that the
slave changes no description it is not sent and sends back only descriptions it created.

Does not own: the commands themselves (`readyRead`, in `Libcamera.Ipc.Slave`) and the master
(`Libcamera.Ipc.UnixSocketTest`), which sends the slave only the messages of the test.

A description read to the end of its file is `OpenFile.readToEnd`: a read at or past the end
returns 0 and leaves the offset where it is, so the copy loop of `CMD_JOIN` leaves a file's
offset at its length or, if it was already past it, where it was.
-/

set_option autoImplicit false

namespace Libcamera.Ipc

open IPCUnixSocket

/-! ## Which descriptions a call changes -/

namespace Files

/-- `after` keeps the descriptions of `before`: it has at least as many, and each of `before`
that `changed` does not name is as it was. -/
structure Keeps (changed : Fd → Prop) (before after : Files) : Prop where
  length_le : before.descriptions.length ≤ after.descriptions.length
  get_eq : ∀ fd, fd.description < before.descriptions.length → ¬changed fd →
    after.get fd = before.get fd

namespace Keeps

variable {changed other : Fd → Prop} {files middle after : Files}

theorem refl (changed : Fd → Prop) (files : Files) : Keeps changed files files :=
  ⟨le_rfl, fun _ _ _ => rfl⟩

theorem trans (first : Keeps changed files middle) (second : Keeps changed middle after) :
    Keeps changed files after :=
  ⟨first.length_le.trans second.length_le, fun fd inside untouched => by
    rw [second.get_eq fd (lt_of_lt_of_le inside first.length_le) untouched,
      first.get_eq fd inside untouched]⟩

theorem mono (keeps : Keeps changed files after)
    (wider : ∀ fd, fd.description < files.descriptions.length → changed fd → other fd) :
    Keeps other files after :=
  ⟨keeps.length_le, fun fd inside untouched =>
    keeps.get_eq fd inside fun touched => untouched (wider fd inside touched)⟩

/-- A call that changes only descriptor tables keeps every description. -/
theorem of_descriptions (same : after.descriptions = files.descriptions) :
    Keeps changed files after :=
  ⟨(congrArg List.length same).ge, fun _ _ _ => by simp only [get, same]⟩

end Keeps

variable (files : Files) (process : Process) (fd : Fd)

theorem get_ne_none_iff : files.get fd ≠ none ↔ fd.description < files.descriptions.length := by
  rw [get, ne_eq, List.getElem?_eq_none_iff, Nat.not_le]

theorem keeps_set (file : OpenFile) : Keeps (· = fd) files (files.set fd file) :=
  ⟨by simp, fun _ _ distinct => files.get_set_of_ne fd _ file distinct⟩

theorem keeps_lseek (offset : Nat) (whence : Whence) :
    Keeps (· = fd) files (files.lseek process fd offset whence).2 := by
  unfold lseek
  split
  · exact .refl _ files
  · exact files.keeps_set fd _

theorem keeps_read (count : Nat) : Keeps (· = fd) files (files.read process fd count).2.2 := by
  unfold read
  split
  · exact .refl _ files
  · exact files.keeps_set fd _

theorem keeps_write (bytes : List UInt8) :
    Keeps (· = fd) files (files.write process fd bytes).2 := by
  unfold write
  split
  · exact .refl _ files
  · exact files.keeps_set fd _

theorem keeps_close : Keeps (fun _ => False) files (files.close process fd).2 := by
  unfold close
  split
  · exact .of_descriptions (setHeld_descriptions _ _ _)
  · exact .refl _ files

theorem keeps_push (file : OpenFile) : Keeps (fun _ => False) files (files.push file).2 := by
  refine ⟨by simp [push], fun other inside _ => ?_⟩
  have fresh : other ≠ (files.push file).1 := fun same => by
    rw [same] at inside
    exact Nat.lt_irrefl _ inside
  rw [get_push, if_neg fresh]

theorem keeps_create (file : OpenFile) : Keeps (fun _ => False) files (files.create process file).2 :=
  (files.keeps_push file).trans (.of_descriptions (hold_descriptions _ _ _))

/-- `lseek(fd, 0, SEEK_SET)` through a descriptor the process holds rewinds its description,
if there is one, and changes nothing else. -/
theorem get_lseek_zero {fd : Fd} (holds : fd ∈ files.held process) (other : Fd) :
    (files.lseek process fd 0 .seekSet).2.get other =
      if other = fd then (files.get fd).map fun file => { file with offset := 0 }
      else files.get other := by
  cases found : files.get fd with
  | none =>
      rw [lseek_of_none (by rw [find_of_held _ _ holds, found])]
      split_ifs with same
      · rw [same, found]
        rfl
      · rfl
  | some file =>
      have opened : files.find process fd = some file := by rw [find_of_held _ _ holds, found]
      rw [lseek_seekSet opened]
      split_ifs with same
      · rw [same, files.get_set_self fd _ found]
        rfl
      · exact files.get_set_of_ne fd other _ same

@[simp] theorem get_close (other : Fd) : (files.close process fd).2.get other = files.get other := by
  unfold close
  split <;> simp

@[simp] theorem close_exe : (files.close process fd).2.exe = files.exe := by
  unfold close
  split <;> simp

@[simp] theorem close_tmpfileSupported :
    (files.close process fd).2.tmpfileSupported = files.tmpfileSupported := by
  unfold close
  split <;> simp

@[simp] theorem close_descriptions : (files.close process fd).2.descriptions = files.descriptions := by
  unfold close
  split <;> simp

/-- Closing `fd` leaves every other descriptor held. -/
theorem mem_held_close {other : Fd} (distinct : other ≠ fd) (holds : other ∈ files.held process) :
    other ∈ (files.close process fd).2.held process := by
  unfold close
  split
  · rw [held_setHeld]
    exact (List.mem_erase_of_ne distinct).2 holds
  · exact holds

theorem held_close_of_ne {other : Process} (distinct : other ≠ process) :
    (files.close process fd).2.held other = files.held other := by
  unfold close
  split
  · exact held_setHeld_of_ne _ _ _ distinct
  · rfl

theorem held_hold_of_ne {other : Process} (fds : List Fd) (distinct : other ≠ process) :
    (files.hold process fds).held other = files.held other :=
  held_setHeld_of_ne _ _ _ distinct

@[simp] theorem held_lseek (offset : Nat) (whence : Whence) (other : Process) :
    (files.lseek process fd offset whence).2.held other = files.held other := by
  unfold lseek
  split <;> simp

@[simp] theorem held_read (count : Nat) (other : Process) :
    (files.read process fd count).2.2.held other = files.held other := by
  unfold read
  split <;> simp

@[simp] theorem held_write (bytes : List UInt8) (other : Process) :
    (files.write process fd bytes).2.held other = files.held other := by
  unfold write
  split <;> simp

end Files

/-! ## The sum that `CMD_LEN_CALC` replies with -/

/-- The length of the description of `fd`, as `lseek(fd, 0, SEEK_END)` returns it: -1 when
there is no such description. -/
def fileLength (files : Files) (fd : Fd) : Int :=
  ((files.get fd).map fun file => (file.data.length : Int)).getD (-1)

/-- The `int` that `calculateLength` returns for a descriptor of `fd`. -/
def intLength (files : Files) (fd : Fd) : Int :=
  toInt (fileLength files fd)

/-- Whether adding each of `lengths` in turn to `size` keeps every sum an `int`. -/
def sumFits (size : Int) : List Int → Bool
  | [] => true
  | length :: rest => isInt (size + length) && sumFits (size + length) rest

/-- `calculateLength(fd)` for a descriptor the process holds, whether or not it names a
description: the length as an `int`, and `fd` rewound. -/
theorem calculateLength_eq {files : Files} {process : Process} {fd : Fd}
    (holds : fd ∈ files.held process) :
    calculateLength files process fd = (intLength files fd, (files.lseek process fd 0 .seekSet).2) := by
  cases found : files.get fd with
  | none =>
      have closed : files.find process fd = none := by rw [Files.find_of_held _ _ holds, found]
      rw [calculateLength_of_none closed, Files.lseek_of_none closed, intLength, fileLength, found]
      rfl
  | some file =>
      have opened : files.find process fd = some file := by rw [Files.find_of_held _ _ holds, found]
      simp [calculateLength_of_find opened, Files.lseek_seekSet opened, intLength, fileLength, found]

theorem fileLength_lseek_zero (files : Files) (process : Process) (fd other : Fd) :
    fileLength (files.lseek process fd 0 .seekSet).2 other = fileLength files other := by
  cases found : files.find process fd with
  | none => rw [Files.lseek_of_none found]
  | some file =>
      rw [Files.lseek_seekSet found]
      have fdGet := ((files.find_eq_some process).1 found).2
      by_cases same : other = fd
      · subst same
        simp [fileLength, files.get_set_self _ _ fdGet, fdGet]
      · simp [fileLength, files.get_set_of_ne _ _ _ same]

/-- The loop of `CMD_LEN_CALC` over descriptors the process holds adds to `size` the length
of the file of each, as often as it is named and -1 for one that names no description:
rewinding a file does not change a length the loop reads later. Where a sum along the way is
not an `int`, the behaviour is undefined. -/
theorem sumLengths_fst {process : Process} (fds : List Fd) : ∀ (files : Files) (size : Int),
    (∀ fd ∈ fds, fd ∈ files.held process) →
    (sumLengths files process size fds).map Prod.fst =
      if sumFits size (fds.map (intLength files)) then some (size + (fds.map (intLength files)).sum)
      else none := by
  induction fds with
  | nil => intro files size _; simp [sumLengths, sumFits]
  | cons fd rest inductionHypothesis =>
      intro files size held
      have sameLengths : rest.map (intLength (files.lseek process fd 0 .seekSet).2) =
          rest.map (intLength files) :=
        List.map_congr_left fun other _ => by rw [intLength, intLength, fileLength_lseek_zero]
      rw [sumLengths, calculateLength_eq (held fd (List.mem_cons_self _ _))]
      dsimp only
      unfold addInt
      by_cases fits : isInt (size + intLength files fd) = true
      · rw [if_pos fits, Option.some_bind, inductionHypothesis _ _ fun other member => by
          rw [Files.held_lseek]; exact held other (List.mem_cons_of_mem _ member), sameLengths]
        simp [sumFits, fits, add_assoc]
      · simp [sumFits, fits]

/-- The loop of `CMD_LEN_CALC` over descriptors the process holds rewinds each description
of `fds` and changes nothing else, nor the descriptor tables. -/
theorem sumLengths_snd {process : Process} (fds : List Fd) : ∀ {files after : Files} {size total : Int},
    (∀ fd ∈ fds, fd ∈ files.held process) → sumLengths files process size fds = some (total, after) →
      (∀ other, after.get other =
        if other ∈ fds then (files.get other).map fun file => { file with offset := 0 }
        else files.get other) ∧ ∀ other, after.held other = files.held other := by
  induction fds with
  | nil =>
      intro files after size total _ summed
      cases summed
      simp
  | cons fd rest inductionHypothesis =>
      intro files after size total held summed
      have holds := held fd (List.mem_cons_self _ _)
      rw [sumLengths, calculateLength_eq holds] at summed
      obtain ⟨sum, -, summed⟩ := Option.bind_eq_some.1 summed
      obtain ⟨gets, helds⟩ := inductionHypothesis (fun other member => by
        rw [Files.held_lseek]; exact held other (List.mem_cons_of_mem _ member)) summed
      refine ⟨fun other => ?_, fun other => by rw [helds, Files.held_lseek]⟩
      rw [gets, Files.get_lseek_zero _ _ holds]
      by_cases same : other = fd
      · subst same
        cases files.get other <;> simp
      · by_cases later : other ∈ rest <;> simp [same, later, Files.get_lseek_zero _ _ holds]

/-- The loop of `CMD_LEN_CALC` over `n` descriptors of one rewound description, where the sum
stays an `int`: `n` times the length of its file, with nothing changed. -/
theorem sumLengths_replicate {files : Files} {process : Process} {fd : Fd} {data : List UInt8}
    (found : files.find process fd = some ⟨data, 0⟩) (n : Nat) : ∀ size : Int, 0 ≤ size →
      size + n * data.length < 2 ^ 31 →
      sumLengths files process size (List.replicate n fd) = some (size + n * data.length, files) := by
  induction n with
  | zero => intro size _ _; simp [sumLengths]
  | succ n inductionHypothesis =>
      intro size nonneg fits
      have product : 0 ≤ (n : Int) * data.length := Int.mul_nonneg (Int.ofNat_nonneg _) (Int.ofNat_nonneg _)
      rw [Nat.cast_succ, Int.add_mul, Int.one_mul] at fits ⊢
      have lengthFits : isInt data.length = true := (isInt_iff _).2 (by omega)
      have sumFits : isInt (size + data.length) = true := (isInt_iff _).2 (by omega)
      rw [List.replicate_succ, sumLengths, calculateLength_of_find found, toInt_of_isInt lengthFits,
        Files.set_of_get _ _ _ ((files.find_eq_some process).1 found).2]
      rw [show addInt size ((data.length : Int), files).1 = some (size + data.length) from
        addInt_eq_some_iff.2 ⟨sumFits, rfl⟩, Option.some_bind, inductionHypothesis _ (by omega) (by omega)]
      exact congrArg (fun total => some (total, files)) (by omega)

theorem keeps_calculateLength (files : Files) (process : Process) (fd : Fd) :
    Files.Keeps (· = fd) files (calculateLength files process fd).2 :=
  ((files.keeps_lseek process fd 0 .seekSet).trans (Files.keeps_lseek _ process fd 0 .seekEnd)).trans
    (Files.keeps_lseek _ process fd 0 .seekSet)

/-- The loop of `CMD_LEN_CALC` changes only the descriptions it is given. -/
theorem keeps_sumLengths {process : Process} (fds : List Fd) : ∀ {files after : Files} {size total : Int},
    sumLengths files process size fds = some (total, after) → Files.Keeps (· ∈ fds) files after := by
  induction fds with
  | nil =>
      intro files after size total summed
      cases summed
      exact .refl _ files
  | cons fd rest inductionHypothesis =>
      intro files after size total summed
      rw [sumLengths] at summed
      obtain ⟨sum, -, summed⟩ := Option.bind_eq_some.1 summed
      exact ((keeps_calculateLength files process fd).mono fun _ _ same => same ▸ List.mem_cons_self _ _).trans
        ((inductionHypothesis summed).mono fun _ _ => List.mem_cons_of_mem _)

/-! ## The copy loops of `CMD_JOIN` -/

@[simp] theorem OpenFile.readToEnd_readToEnd (file : OpenFile) :
    file.readToEnd.readToEnd = file.readToEnd := by
  simp only [OpenFile.readToEnd, OpenFile.mk.injEq, true_and]
  omega

@[simp] theorem OpenFile.drop_readToEnd (file : OpenFile) :
    file.readToEnd.data.drop file.readToEnd.offset = [] :=
  List.drop_eq_nil_of_le (le_max_right _ _)

namespace UnixSocketTestSlave

/-- The copy loop changes only the descriptions of `fd` and `outfd`, and no descriptor
table. -/
theorem copyFd_frame (outfd fd : Fd) (fuel : Nat) : ∀ {files after : Files} {ok : Bool},
    copyFd outfd fd fuel files = some (ok, after) →
      Files.Keeps (fun other => other = fd ∨ other = outfd) files after ∧
        ∀ process, after.held process = files.held process := by
  induction fuel with
  | zero => intro _ _ _ copied; cases copied
  | succ fuel inductionHypothesis =>
      intro files after ok copied
      have reading := files.keeps_read .slave fd 32
      have readHeld := files.held_read .slave fd 32
      rcases readEq : files.read .slave fd 32 with ⟨num, buf, readFiles⟩
      rw [readEq] at reading readHeld
      have writing := readFiles.keeps_write .slave outfd buf
      have writeHeld := readFiles.held_write .slave outfd buf
      rcases writeEq : readFiles.write .slave outfd buf with ⟨written, writeFiles⟩
      rw [writeEq] at writing writeHeld
      have moved : Files.Keeps (fun other => other = fd ∨ other = outfd) files writeFiles :=
        (reading.mono fun _ _ => .inl).trans (writing.mono fun _ _ => .inr)
      simp only [copyFd, readEq, writeEq] at copied
      split_ifs at copied
      · cases copied
        exact ⟨reading.mono fun _ _ => .inl, readHeld⟩
      · cases copied
        exact ⟨reading.mono fun _ _ => .inl, readHeld⟩
      · cases copied
        exact ⟨moved, fun process => by rw [writeHeld, readHeld]⟩
      · obtain ⟨later, laterHeld⟩ := inductionHypothesis copied
        exact ⟨moved.trans later, fun process => by rw [laterHeld, writeHeld, readHeld]⟩

/-- One run of the copy loop of `CMD_JOIN`, through descriptors the slave holds, on another
description than `outfd`'s, with `outfd` at the end of its file: it moves the unread bytes of
`fd` to the end of `outfd`, leaves `fd` read to its end, and changes nothing else. -/
theorem copyFd_moves {outfd fd : Fd} {files : Files} {src dst : OpenFile} (distinct : fd ≠ outfd)
    (found : files.find .slave fd = some src) (target : files.find .slave outfd = some dst)
    (atEnd : dst.offset = dst.data.length) :
    ∃ mid, copyFd outfd fd ((unread files fd).length + 1) files = some (true, mid) ∧
      mid.get fd = some src.readToEnd ∧
      mid.get outfd = some ⟨dst.data ++ unread files fd, dst.data.length + (unread files fd).length⟩ ∧
      (∀ other, other ≠ fd → other ≠ outfd → mid.get other = files.get other) ∧
      ∀ process, mid.held process = files.held process := by
  have srcGet := ((files.find_eq_some _).1 found).2
  have dstGet := ((files.find_eq_some _).1 target).2
  have unreadEq : unread files fd = src.data.drop src.offset := by simp [unread, srcGet]
  have kept : (files.set fd src.readToEnd).get outfd = some dst := by
    rw [files.get_set_of_ne _ _ _ (Ne.symm distinct), dstGet]
  refine ⟨_, copyFd_step distinct _ files src dst found target atEnd
    (by rw [unreadEq, List.length_drop]; omega), ?_, ?_, fun other notFd notOut => ?_, fun process => ?_⟩
  · rw [Files.get_set_of_ne _ _ _ _ distinct, Files.get_set_self _ _ _ srcGet]
  · rw [Files.get_set_self _ _ _ kept, unreadEq, List.length_drop]
  · rw [Files.get_set_of_ne _ _ _ _ notOut, Files.get_set_of_ne _ _ _ _ notFd]
  · simp

/-- The `for` loop of `CMD_JOIN` changes only the descriptions of the message and of
`outfd`; it only closes descriptors of the slave, and none of the master. -/
theorem joinFds_frame (outfd : Fd) (fds : List Fd) : ∀ {files after : Files} {ok : Bool},
    joinFds outfd fds files = some (ok, after) →
      Files.Keeps (fun other => other ∈ fds ∨ other = outfd) files after ∧
        after.held .master = files.held .master ∧ (after.held .slave).Sublist (files.held .slave) := by
  induction fds with
  | nil =>
      intro files after ok joined
      simp only [joinFds, Option.some.injEq, Prod.mk.injEq] at joined
      obtain ⟨-, rfl⟩ := joined
      exact ⟨.refl _ _, rfl, List.Sublist.refl _⟩
  | cons fd rest inductionHypothesis =>
      intro files after ok joined
      cases copied : copyFd outfd fd ((unread files fd).length + 1) files with
      | none => simp [joinFds, copied] at joined
      | some result =>
          obtain ⟨copiedOk, copiedFiles⟩ := result
          obtain ⟨first, firstHeld⟩ := copyFd_frame outfd fd _ copied
          have touchedFirst : ∀ other, other = fd ∨ other = outfd → other ∈ fd :: rest ∨ other = outfd :=
            fun _ touched => touched.imp_left fun same => by
              rw [same]
              exact List.mem_cons_self _ _
          cases copiedOk
          · simp only [joinFds, copied, Option.some.injEq, Prod.mk.injEq] at joined
            obtain ⟨-, rfl⟩ := joined
            exact ⟨first.mono fun other _ => touchedFirst other, firstHeld _,
              by rw [firstHeld]⟩
          · simp only [joinFds, copied] at joined
            have closing := copiedFiles.keeps_close .slave fd
            obtain ⟨later, laterMaster, laterSlave⟩ := inductionHypothesis joined
            have closedHeld : ∀ process, ((copiedFiles.close .slave fd).2.held process).Sublist
                (copiedFiles.held process) := fun process => by
              unfold Files.close
              split
              · cases process
                · simp [Files.held, Files.setHeld]
                · simp only [Files.held_setHeld]
                  exact List.erase_sublist _ _
              · exact List.Sublist.refl _
            refine ⟨(((first.mono fun other _ => touchedFirst other).trans
              (closing.mono fun _ _ => False.elim)).trans (later.mono fun other _ touched => ?_)),
              ?_, laterSlave.trans ((closedHeld .slave).trans (by rw [firstHeld]))⟩
            · exact touched.imp_left (List.mem_cons_of_mem _)
            · rw [laterMaster, ← firstHeld .master]
              unfold Files.close
              split <;> simp [Files.held, Files.setHeld]

/-- A `for` loop of `CMD_JOIN` that succeeds closes one descriptor of the slave for each
descriptor of the message. -/
theorem held_joinFds (outfd : Fd) (fds : List Fd) : ∀ {files after : Files},
    fds.Subperm (files.held .slave) → joinFds outfd fds files = some (true, after) →
      (after.held .slave ++ fds).Perm (files.held .slave) := by
  induction fds with
  | nil =>
      intro files after _ joined
      cases joined
      simp
  | cons fd rest inductionHypothesis =>
      intro files after received joined
      cases copied : copyFd outfd fd ((unread files fd).length + 1) files with
      | none => simp [joinFds, copied] at joined
      | some result =>
          obtain ⟨copiedOk, copiedFiles⟩ := result
          cases copiedOk
          · simp [joinFds, copied] at joined
          · simp only [joinFds, copied] at joined
            have sameHeld := (copyFd_frame outfd fd _ copied).2 .slave
            have holds : fd ∈ files.held .slave := received.subset (List.mem_cons_self _ _)
            have closedHeld : (copiedFiles.close .slave fd).2.held .slave =
                (files.held .slave).erase fd := by
              rw [Files.close_of_held (by rwa [sameHeld]), Files.held_setHeld, sameHeld]
            have restReceived : rest.Subperm ((copiedFiles.close .slave fd).2.held .slave) := by
              rw [closedHeld]
              simpa using received.erase fd
            have restClosed := inductionHypothesis restReceived joined
            rw [closedHeld] at restClosed
            exact List.perm_middle.trans ((restClosed.cons fd).trans (List.perm_cons_erase holds).symm)

end UnixSocketTestSlave

theorem eraseDups_loop (fds seen : List Fd) :
    ∃ new, List.eraseDups.loop fds seen = seen.reverse ++ new ∧
      ∀ fd ∈ new, fd ∈ fds ∧ fd ∉ seen := by
  induction fds generalizing seen with
  | nil => exact ⟨[], by simp [List.eraseDups.loop], by simp⟩
  | cons fd rest inductionHypothesis =>
      by_cases member : fd ∈ seen
      · obtain ⟨new, loopEq, fresh⟩ := inductionHypothesis seen
        refine ⟨new, by simp [List.eraseDups.loop, member, loopEq], fun x xIn => ?_⟩
        exact ⟨List.mem_cons_of_mem _ (fresh x xIn).1, (fresh x xIn).2⟩
      · obtain ⟨new, loopEq, fresh⟩ := inductionHypothesis (fd :: seen)
        refine ⟨fd :: new, by simp [List.eraseDups.loop, member, loopEq], fun x xIn => ?_⟩
        rcases List.mem_cons.1 xIn with rfl | later
        · exact ⟨List.mem_cons_self _ _, member⟩
        · have known := fresh x later
          rw [List.mem_cons, not_or] at known
          exact ⟨List.mem_cons_of_mem _ known.1, known.2.2⟩

/-- `List.eraseDups` keeps a list without repeats as it is. -/
theorem eraseDups_of_nodup {fds : List Fd} (distinct : fds.Nodup) : fds.eraseDups = fds := by
  have loop : ∀ seen : List Fd, (∀ fd ∈ fds, fd ∉ seen) →
      List.eraseDups.loop fds seen = seen.reverse ++ fds := by
    induction fds with
    | nil => intro seen _; simp [List.eraseDups.loop]
    | cons fd rest inductionHypothesis =>
        intro seen fresh
        rw [List.nodup_cons] at distinct
        have restFresh : ∀ x ∈ rest, x ∉ fd :: seen := fun x member => by
          rw [List.mem_cons, not_or]
          exact ⟨fun same => distinct.1 (same ▸ member), fresh x (List.mem_cons_of_mem _ member)⟩
        simp [List.eraseDups.loop, fresh fd (List.mem_cons_self _ _),
          inductionHypothesis distinct.2 _ restFresh]
  simpa using loop [] (by simp)

namespace UnixSocketTestSlave

/-- The `for` loop of `CMD_JOIN` over open descriptors the slave holds, other than `outfd`,
once the descriptions `seen` have been read to their end: it appends to `outfd` the unread
bytes of each description the first time it meets it, that is of the descriptors `new` that
`List.eraseDups` keeps after `seen`, leaves each description of `fds` read to its end, and
keeps `outfd` open. -/
theorem joinFds_eraseDups_loop (outfd : Fd) (fds : List Fd) :
    ∀ (files : Files) (seen new : List Fd) (dst : OpenFile),
      List.eraseDups.loop fds seen = seen.reverse ++ new → outfd ∉ fds →
      fds.Subperm (files.held .slave) → outfd ∈ files.held .slave →
      (∀ fd ∈ fds, files.get fd ≠ none) → (∀ fd ∈ seen, unread files fd = []) →
      files.get outfd = some dst → dst.offset = dst.data.length →
      ∃ after, joinFds outfd fds files = some (true, after) ∧
        after.get outfd = some ⟨dst.data ++ (new.map (unread files)).flatten,
          dst.data.length + (new.map (unread files)).flatten.length⟩ ∧
        (∀ fd ∈ fds, after.get fd = (files.get fd).map OpenFile.readToEnd) ∧
        outfd ∈ after.held .slave := by
  induction fds with
  | nil =>
      intro files seen new dst loopEq _ _ holdsOut _ _ target atEnd
      have noNew : new = [] := by simpa [List.eraseDups.loop] using loopEq
      subst noNew
      refine ⟨files, rfl, ?_, by simp, holdsOut⟩
      rw [target]
      simp [← atEnd]
  | cons fd rest inductionHypothesis =>
      intro files seen new dst loopEq absent received holdsOut opened exhausted target atEnd
      rw [List.mem_cons, not_or] at absent
      obtain ⟨src, found⟩ := Option.ne_none_iff_exists'.1 (opened fd (List.mem_cons_self _ _))
      have holds : fd ∈ files.held .slave := received.subset (List.mem_cons_self _ _)
      obtain ⟨mid, copied, midFd, midOut, midOther, midHeld⟩ := copyFd_moves (Ne.symm absent.1)
        (by rw [Files.find_of_held _ _ holds, found]) (by rw [Files.find_of_held _ _ holdsOut, target])
        atEnd
      -- the loop closes `fd` once copied
      set closed := (mid.close .slave fd).2 with closedEq
      have closedHeld : closed.held .slave = (files.held .slave).erase fd := by
        rw [closedEq, Files.close_of_held (by rw [midHeld]; exact holds), Files.held_setHeld, midHeld]
      have restReceived : rest.Subperm (closed.held .slave) := by
        rw [closedHeld]
        simpa using received.erase fd
      have outHeld : outfd ∈ closed.held .slave := by
        rw [closedHeld]
        exact (List.mem_erase_of_ne absent.1).2 holdsOut
      have closedFd : closed.get fd = some src.readToEnd := by rw [Files.get_close, midFd]
      have closedOut : closed.get outfd = some ⟨dst.data ++ unread files fd,
          dst.data.length + (unread files fd).length⟩ := by rw [Files.get_close, midOut]
      have closedOther : ∀ x, x ≠ fd → x ≠ outfd → closed.get x = files.get x :=
        fun x notFd notOut => by rw [Files.get_close, midOther x notFd notOut]
      have restNotOut : ∀ x ∈ rest, x ≠ outfd := fun x member out => absent.2 (out ▸ member)
      have closedOpened : ∀ x ∈ rest, closed.get x ≠ none := fun x member => by
        by_cases same : x = fd
        · rw [same, closedFd]
          exact Option.some_ne_none _
        · rw [closedOther x same (restNotOut x member)]
          exact opened x (List.mem_cons_of_mem _ member)
      have closedExhausted : ∀ s ∈ fd :: seen, unread closed s = [] := fun s member => by
        by_cases same : s = fd
        · simp [unread, same, closedFd]
        by_cases out : s = outfd
        · simp [unread, out, closedOut, atEnd]
        · simp only [unread, closedOther s same out]
          exact exhausted s ((List.mem_cons.1 member).resolve_left same)
      have sameUnread : ∀ xs : List Fd, (∀ x ∈ xs, x ∈ rest ∧ x ≠ fd) →
          xs.map (unread closed) = xs.map (unread files) := fun xs inRest =>
        List.map_congr_left fun x xIn => by
          simp only [unread, closedOther x (inRest x xIn).2 (restNotOut x (inRest x xIn).1)]
      have finish : ∀ after, joinFds outfd rest closed = some (true, after) →
          (∀ x ∈ rest, after.get x = (closed.get x).map OpenFile.readToEnd) →
          ∀ x ∈ fd :: rest, after.get x = (files.get x).map OpenFile.readToEnd := by
        intro after joined ended x member
        by_cases later : x ∈ rest
        · rw [ended x later]
          by_cases same : x = fd
          · simp [same, closedFd, found]
          · rw [closedOther x same (restNotOut x later)]
        · have same : x = fd := (List.mem_cons.1 member).resolve_right later
          subst same
          have inside := (closed.get_ne_none_iff x).1 (by rw [closedFd]; exact Option.some_ne_none _)
          rw [(joinFds_frame outfd rest joined).1.get_eq x inside (by simp [later, Ne.symm absent.1]),
            closedFd, found]
          simp
      obtain ⟨news, newsEq, newsFresh⟩ := eraseDups_loop (fd :: rest) seen
      have newEq : new = news := List.append_cancel_left (loopEq.symm.trans newsEq)
      subst newEq
      by_cases member : fd ∈ seen
      · -- named before: the loop reads nothing from it
        have nothing : unread files fd = [] := exhausted fd member
        obtain ⟨after, joined, content, ended, stillHeld⟩ := inductionHypothesis closed seen new _
          (by simpa [List.eraseDups.loop, member] using loopEq) absent.2 restReceived outHeld
          closedOpened (fun s known => closedExhausted s (List.mem_cons_of_mem _ known)) closedOut
          (by simp [atEnd])
        have notFd : ∀ x ∈ new, x ≠ fd := fun x xIn same => (newsFresh x xIn).2 (same ▸ member)
        refine ⟨after, by rw [joinFds, copied]; exact joined, ?_, finish after joined ended, stillHeld⟩
        rw [content, sameUnread new fun x xIn =>
          ⟨(List.mem_cons.1 (newsFresh x xIn).1).resolve_left (notFd x xIn), notFd x xIn⟩, nothing]
        simp
      · -- named for the first time: the loop copies its unread bytes
        obtain ⟨rest', restEq, restFresh⟩ := eraseDups_loop rest (fd :: seen)
        have newEq : new = fd :: rest' := List.append_cancel_left (by
          rw [← loopEq]
          simpa [List.eraseDups.loop, member] using restEq)
        obtain ⟨after, joined, content, ended, stillHeld⟩ := inductionHypothesis closed (fd :: seen)
          rest' _ restEq absent.2 restReceived outHeld closedOpened closedExhausted closedOut
          (by simp [atEnd])
        have inRest : ∀ x ∈ rest', x ∈ rest ∧ x ≠ fd := fun x xIn => by
          have known := restFresh x xIn
          rw [List.mem_cons, not_or] at known
          exact ⟨known.1, known.2.1⟩
        refine ⟨after, by rw [joinFds, copied]; exact joined, ?_, finish after joined ended, stillHeld⟩
        rw [content, sameUnread rest' inRest, newEq]
        simp only [List.map_cons, List.flatten_cons, List.append_assoc, List.length_append]
        congr 2
        omega

end UnixSocketTestSlave

/-! ## What each command does, for every message -/

/-- Two files, rewound, no descriptor held, and `/tmp` supporting `O_TMPFILE`: a machine for
concrete runs. -/
def twoFiles : Files :=
  ⟨[⟨[1, 2], 0⟩, ⟨[3], 0⟩], [], [], [], true⟩

namespace UnixSocketTestSlave

section Commands

variable (slave : UnixSocketTestSlave) (files : Files) {message : Payload} {rest : List UInt8}

theorem received_held (fd : Fd) (carried : fd ∈ message.fds) :
    fd ∈ (receive files .slave message).held .slave := by
  simp [receive, carried]

/-- A message lets the slave change only the descriptions it carries, and create at most
one, that of `CMD_JOIN`, which is the only description a reply carries. -/
theorem readyRead_keeps {result : UnixSocketTestSlave × Files × Option Payload}
    (handled : slave.readyRead files message = some result) :
    Files.Keeps (· ∈ message.fds) files result.2.1 ∧
      ∀ reply ∈ result.2.2.toList, ∀ fd ∈ reply.fds,
        files.descriptions.length ≤ fd.description ∧
          fd.description < result.2.1.descriptions.length := by
  have received : Files.Keeps (· ∈ message.fds) files (receive files .slave message) :=
    .of_descriptions (by simp [receive])
  obtain ⟨cmd, rest, -, branch⟩ := readyRead_cases slave files handled
  rcases branch with ⟨-, rfl⟩ | ⟨-, rfl⟩ | ⟨-, size, summed, rfl⟩ | ⟨-, size, cmp, summed, -, rfl⟩ |
    ⟨-, -, rfl⟩ | ⟨-, outfd, created, ⟨ok, joinedFiles⟩, -, opened, joined, rfl⟩ | ⟨-, rfl⟩
  · exact ⟨received, by simp⟩
  · exact ⟨received, by simp⟩
  · exact ⟨received.trans (keeps_sumLengths _ summed), by simp⟩
  · exact ⟨received.trans (keeps_sumLengths _ summed), by simp⟩
  · exact ⟨received, by simp⟩
  · have outfdLength : outfd.description = files.descriptions.length := by
      have outfdEq : outfd = ((receive files .slave message).create .slave ⟨[], 0⟩).1 := by rw [opened]
      simp [outfdEq, Files.push, receive]
    have createdEq : created = ((receive files .slave message).create .slave ⟨[], 0⟩).2 := by rw [opened]
    have createdKeeps : Files.Keeps (fun fd => fd ∈ message.fds ∨ fd = outfd) files created := by
      rw [createdEq]
      exact (received.mono fun _ _ => .inl).trans ((Files.keeps_create _ _ _).mono fun _ _ => False.elim)
    have createdLength : outfd.description < created.descriptions.length := by
      simp [createdEq, outfdLength, Files.create, Files.push, receive]
    have onlyMessage : ∀ fd, fd.description < files.descriptions.length →
        fd ∈ message.fds ∨ fd = outfd → fd ∈ message.fds := fun fd inside touched =>
      touched.resolve_right fun same => by
        rw [same, outfdLength] at inside
        exact Nat.lt_irrefl _ inside
    have joinKeeps := createdKeeps.trans (joinFds_frame outfd message.fds joined).1
    cases ok
    · exact ⟨joinKeeps.mono onlyMessage, by simp⟩
    · have rewound := (joinedFiles.keeps_lseek .slave outfd 0 .seekSet).trans
        ((Files.keeps_close _ .slave outfd).mono fun _ _ => False.elim)
      refine ⟨(joinKeeps.trans (rewound.mono fun _ _ => .inr)).mono onlyMessage, ?_⟩
      simp only [if_true, Option.toList_some, List.mem_singleton, forall_eq]
      exact ⟨outfdLength.ge, lt_of_lt_of_le createdLength
        ((joinFds_frame outfd message.fds joined).1.length_le.trans rewound.length_le)⟩
  · exact ⟨received, by simp⟩

/-- Which descriptors each process holds after a message: the slave keeps the descriptors
the message brings it, except after a `CMD_JOIN` it answers, which closes each of them and
the descriptor of the file it created, so that the slave holds again what it held before.
The master's table is not the slave's to change. -/
theorem readyRead_held {result : UnixSocketTestSlave × Files × Option Payload}
    (handled : slave.readyRead files message = some result) :
    result.2.1.held .master = files.held .master ∧
      (message.data.head? ≠ some CMD_JOIN → result.2.1.held .slave = files.held .slave ++ message.fds) ∧
      (message.data.head? = some CMD_JOIN → result.2.2.isSome →
        (result.2.1.held .slave).Perm (files.held .slave)) := by
  have receivedMaster : (receive files .slave message).held .master = files.held .master :=
    Files.held_hold_of_ne _ _ _ (by decide)
  have receivedSlave : (receive files .slave message).held .slave = files.held .slave ++ message.fds := by
    simp [receive]
  have summedHeld : ∀ {total : Int} {after : Files},
      sumLengths (receive files .slave message) .slave 0 message.fds = some (total, after) →
        ∀ process, after.held process = (receive files .slave message).held process :=
    fun summed => (sumLengths_snd _ (fun fd => received_held files fd) summed).2
  obtain ⟨cmd, rest, data, branch⟩ := readyRead_cases slave files handled
  simp only [data, List.head?_cons, ne_eq, Option.some.injEq]
  rcases branch with ⟨rfl, rfl⟩ | ⟨rfl, rfl⟩ | ⟨rfl, ⟨total, summedFiles⟩, summed, rfl⟩ |
    ⟨rfl, ⟨total, summedFiles⟩, cmp, summed, -, rfl⟩ | ⟨rfl, -, rfl⟩ |
    ⟨rfl, outfd, created, ⟨ok, joinedFiles⟩, -, opened, joined, rfl⟩ | ⟨unknown, rfl⟩
  · exact ⟨receivedMaster, fun _ => receivedSlave, fun same => absurd same (by decide)⟩
  · exact ⟨receivedMaster, fun _ => receivedSlave, fun same => absurd same (by decide)⟩
  · exact ⟨by rw [summedHeld summed, receivedMaster], fun _ => by rw [summedHeld summed, receivedSlave],
      fun same => absurd same (by decide)⟩
  · exact ⟨by rw [summedHeld summed, receivedMaster], fun _ => by rw [summedHeld summed, receivedSlave],
      fun same => absurd same (by decide)⟩
  · exact ⟨receivedMaster, fun other => (other rfl).elim, fun _ replied => by simp at replied⟩
  · have createdEq : created = ((receive files .slave message).create .slave ⟨[], 0⟩).2 := by rw [opened]
    have outfdEq : outfd = ((receive files .slave message).create .slave ⟨[], 0⟩).1 := by rw [opened]
    have createdMaster : created.held .master = files.held .master := by
      rw [createdEq, Files.create, Files.held_hold_of_ne _ _ _ (by decide), Files.held_push, receivedMaster]
    have createdSlave : created.held .slave = files.held .slave ++ message.fds ++ [outfd] := by
      rw [createdEq, outfdEq, Files.create, Files.held_hold, Files.held_push, receivedSlave]
    have joinedMaster := (joinFds_frame outfd message.fds joined).2.1
    cases ok
    · simp only [Bool.false_eq_true, if_false]
      exact ⟨by rw [joinedMaster, createdMaster], fun other => (other trivial).elim,
        fun _ replied => by simp at replied⟩
    · simp only [if_true]
      have counted := held_joinFds outfd message.fds
        (by rw [createdSlave, List.append_assoc]; exact (List.sublist_append_of_sublist_right
          (List.sublist_append_left _ _)).subperm) joined
      have joinedSlave : (joinedFiles.held .slave).Perm (outfd :: files.held .slave) := by
        rw [createdSlave, List.append_assoc] at counted
        refine (List.perm_append_right_iff message.fds).1
          (counted.trans ((List.perm_append_comm.append_left _).trans ?_))
        rw [← List.append_assoc]
        exact (List.perm_append_singleton _ _).append_right _
      refine ⟨?_, fun other => (other trivial).elim, fun _ _ => ?_⟩
      · rw [Files.held_close_of_ne _ _ _ (by decide), Files.held_lseek, joinedMaster, createdMaster]
      · have outHeld : outfd ∈ joinedFiles.held .slave := joinedSlave.symm.subset (List.mem_cons_self _ _)
        rw [Files.close_of_held (by rwa [Files.held_lseek]), Files.held_setHeld, Files.held_lseek]
        simpa using joinedSlave.erase outfd
  · exact ⟨receivedMaster, fun _ => receivedSlave, fun same => (unknown (by simp [same])).elim⟩

theorem readyRead_held_of_lenCalc_join :
    new.readyRead twoFiles ⟨[CMD_LEN_CALC], [⟨0⟩, ⟨5⟩, ⟨0⟩]⟩ =
        some (new, ⟨[⟨[1, 2], 0⟩, ⟨[3], 0⟩], [], [⟨0⟩, ⟨5⟩, ⟨0⟩], [], true⟩,
          some ⟨CMD_LEN_CALC :: intBytes 3, []⟩) ∧
      (⟨[⟨[1, 2], 0⟩, ⟨[3], 0⟩], [], [⟨0⟩, ⟨5⟩, ⟨0⟩], [], true⟩ : Files).held .slave =
        twoFiles.held .slave ++ [⟨0⟩, ⟨5⟩, ⟨0⟩] ∧
      ∃ result, new.readyRead twoFiles ⟨[CMD_JOIN], [⟨0⟩, ⟨1⟩]⟩ = some result ∧ result.2.2.isSome ∧
        (result.2.1.held .slave).Perm (twoFiles.held .slave) := by
  have summed : new.readyRead twoFiles ⟨[CMD_LEN_CALC], [⟨0⟩, ⟨5⟩, ⟨0⟩]⟩ =
      some (new, ⟨[⟨[1, 2], 0⟩, ⟨[3], 0⟩], [], [⟨0⟩, ⟨5⟩, ⟨0⟩], [], true⟩,
        some ⟨CMD_LEN_CALC :: intBytes 3, []⟩) := by
    decide
  obtain ⟨result, joined⟩ := Option.isSome_iff_exists.1
    (show (new.readyRead twoFiles ⟨[CMD_JOIN], [⟨0⟩, ⟨1⟩]⟩).isSome by decide)
  have replied : result.2.2.isSome := by
    have replies : (new.readyRead twoFiles ⟨[CMD_JOIN], [⟨0⟩, ⟨1⟩]⟩).map (·.2.2.isSome) = some true := by
      decide
    rw [joined, Option.map_some', Option.some.injEq] at replies
    exact replies
  exact ⟨summed, (readyRead_held new twoFiles summed).2.1 (by decide),
    result, joined, replied, (readyRead_held new twoFiles joined).2.2 rfl replied⟩

/-- `CMD_LEN_CALC` adds, as `int`s from 0, the lengths of the files of the message's
descriptors, each as often as the message names it and -1 for one that names no
description; where a partial sum is not an `int` the behaviour is undefined. Otherwise it
replies with the sum, rewinds each of those files and changes no other description. -/
theorem readyRead_lenCalc_sum (command : message.data = CMD_LEN_CALC :: rest) :
    (slave.readyRead files message).map (fun handled => (handled.1, handled.2.2)) =
      (if sumFits 0 (message.fds.map (intLength files)) then
        some (slave, some ⟨CMD_LEN_CALC :: intBytes (toInt32 (message.fds.map (intLength files)).sum), []⟩)
      else none) ∧
    ∀ handled, slave.readyRead files message = some handled → ∀ fd, handled.2.1.get fd =
      if fd ∈ message.fds then (files.get fd).map fun file => { file with offset := 0 }
      else files.get fd := by
  have sameLengths : message.fds.map (intLength (receive files .slave message)) =
      message.fds.map (intLength files) := by
    simp [intLength, fileLength, receive]
  have summed := congrArg
    (Option.map fun total : Int => (slave, some (⟨CMD_LEN_CALC :: intBytes (toInt32 total), []⟩ : Payload)))
    (sumLengths_fst message.fds (receive files .slave message) 0 fun fd => received_held files fd)
  rw [Option.map_map, sameLengths] at summed
  refine ⟨?_, fun handled handledEq fd => ?_⟩
  · rw [readyRead_lenCalc slave files command, Option.map_map]
    refine summed.trans ?_
    split <;> simp
  · rw [readyRead_lenCalc slave files command] at handledEq
    obtain ⟨⟨total, after⟩, summedEq, rfl⟩ := Option.map_eq_some'.1 handledEq
    rw [(sumLengths_snd message.fds (fun fd => received_held files fd) summedEq).1 fd]
    simp [receive]

theorem readyRead_lenCalc_sum_counts_closed :
    (new.readyRead twoFiles ⟨[CMD_LEN_CALC], [⟨0⟩, ⟨5⟩, ⟨0⟩]⟩).map (fun handled => (handled.1, handled.2.2)) =
      some (new, some ⟨CMD_LEN_CALC :: intBytes 3, []⟩) :=
  (readyRead_lenCalc_sum new twoFiles
    (show (⟨[CMD_LEN_CALC], [⟨0⟩, ⟨5⟩, ⟨0⟩]⟩ : Payload).data = CMD_LEN_CALC :: [] from rfl)).1.trans
    (by decide)

/-- `CMD_JOIN` on open descriptors, where `/tmp` supports `O_TMPFILE`, up to the reply: the
copy loops append to a new description the unread bytes of each description the message
names, once, in the order the message first names them, and leave each of those read to its
end; the reply carries the new descriptor, rewound, which the slave then closes. -/
theorem readyRead_join_loop (command : message.data = CMD_JOIN :: rest)
    (supported : files.tmpfileSupported = true) (opened : ∀ fd ∈ message.fds, files.get fd ≠ none) :
    ∃ (outfd : Fd) (joined : Files), files.get outfd = none ∧
      slave.readyRead files message = some (slave,
        ((joined.lseek .slave outfd 0 .seekSet).2.close .slave outfd).2, some ⟨[CMD_JOIN], [outfd]⟩) ∧
      joined.get outfd = some ⟨(message.fds.eraseDups.map (unread files)).flatten,
        (message.fds.eraseDups.map (unread files)).flatten.length⟩ ∧
      outfd ∈ joined.held .slave ∧
      ∀ fd, files.get fd ≠ none →
        joined.get fd = if fd ∈ message.fds then (files.get fd).map OpenFile.readToEnd
          else files.get fd := by
  have receivedGet : ∀ fd, (receive files .slave message).get fd = files.get fd := fun fd => by
    simp [receive]
  obtain ⟨outfd, created, createdEq⟩ : ∃ outfd created,
      (receive files .slave message).create .slave ⟨[], 0⟩ = (outfd, created) := ⟨_, _, rfl⟩
  have outfdEq : outfd = ((receive files .slave message).create .slave ⟨[], 0⟩).1 := by rw [createdEq]
  have old : ∀ fd, files.get fd ≠ none → fd ≠ outfd := fun fd openFd => by
    have fresh := Files.push_ne_of_get (receive files .slave message) ⟨[], 0⟩
      (by rw [receivedGet]; exact openFd)
    rw [← Files.create_fst _ .slave, createdEq] at fresh
    exact Ne.symm fresh
  have createdGet : ∀ fd, created.get fd = if fd = outfd then some ⟨[], 0⟩ else files.get fd :=
    fun fd => by
      have got := Files.get_create (receive files .slave message) .slave ⟨[], 0⟩ fd
      rw [createdEq, receivedGet] at got
      exact got
  have kept : ∀ fd, files.get fd ≠ none → created.get fd = files.get fd := fun fd openFd => by
    rw [createdGet, if_neg (old fd openFd)]
  have createdHeld : created.held .slave = files.held .slave ++ message.fds ++ [outfd] := by
    have held := congrArg (fun made : Fd × Files => made.2.held .slave) createdEq
    simp only [Files.create, Files.held_hold, Files.held_push, receive] at held
    rw [← held, outfdEq]
    rfl
  obtain ⟨new, loopEq, newFresh⟩ := eraseDups_loop message.fds []
  obtain ⟨joined, joinedEq, content, ended, outHeld⟩ := joinFds_eraseDups_loop outfd message.fds
    created [] new ⟨[], 0⟩ loopEq (fun member => old _ (opened _ member) rfl)
    (by rw [createdHeld]; exact ((List.sublist_append_right _ _).trans (List.sublist_append_left _ _)).subperm)
    (by simp [createdHeld])
    (fun fd member => by rw [kept fd (opened fd member)]; exact opened fd member) (by simp)
    (by rw [createdGet, if_pos rfl]) rfl
  have newEq : message.fds.eraseDups = new := by simpa using loopEq
  have sameUnread : new.map (unread created) = new.map (unread files) :=
    List.map_congr_left fun fd member => by
      simp only [unread, kept fd (opened fd (newFresh fd member).1)]
  refine ⟨outfd, joined, ?_, ?_, ?_, outHeld, fun fd openFd => ?_⟩
  · rw [outfdEq, ← receivedGet]
    exact Files.get_push_fst _ ⟨[], 0⟩
  · rw [readyRead_join slave files command supported]
    simp [createdEq, joinedEq]
  · rw [content, sameUnread, newEq]
    simp
  · split_ifs with member
    · rw [ended fd member, kept fd openFd]
    · rw [(joinFds_frame outfd message.fds joinedEq).1.get_eq fd
        ((created.get_ne_none_iff fd).1 (by rw [kept fd openFd]; exact openFd))
        (by simp [member, old fd openFd]), kept fd openFd]

/-- `CMD_JOIN` on open descriptors, where `/tmp` supports `O_TMPFILE`, answers with a new
description whose file holds, rewound, the unread bytes of each description the message
names, once, in the order the message first names them: a description named again has
nothing left to read. It leaves each description of the message read to its end, and
changes no other. -/
theorem readyRead_join_eraseDups (command : message.data = CMD_JOIN :: rest)
    (supported : files.tmpfileSupported = true) (opened : ∀ fd ∈ message.fds, files.get fd ≠ none) :
    ∃ outfd after, files.get outfd = none ∧
      slave.readyRead files message = some (slave, after, some ⟨[CMD_JOIN], [outfd]⟩) ∧
      after.get outfd = some ⟨(message.fds.eraseDups.map (unread files)).flatten, 0⟩ ∧
      ∀ fd, files.get fd ≠ none →
        after.get fd = if fd ∈ message.fds then (files.get fd).map OpenFile.readToEnd
          else files.get fd := by
  obtain ⟨outfd, joined, fresh, handled, content, outHeld, others⟩ :=
    readyRead_join_loop slave files command supported opened
  have rewound := Files.get_lseek_zero joined .slave outHeld
  refine ⟨outfd, _, fresh, handled, ?_, fun fd openFd => ?_⟩
  · rw [Files.get_close, rewound, if_pos rfl, content]
    rfl
  · have distinct : fd ≠ outfd := fun same => openFd (by rw [same]; exact fresh)
    rw [Files.get_close, rewound, if_neg distinct, others fd openFd]

theorem readyRead_join_named_twice :
    ∃ outfd after, new.readyRead twoFiles ⟨[CMD_JOIN], [⟨0⟩, ⟨1⟩, ⟨0⟩]⟩ =
        some (new, after, some ⟨[CMD_JOIN], [outfd]⟩) ∧
      after.get outfd = some ⟨[1, 2, 3], 0⟩ := by
  obtain ⟨outfd, after, -, handled, joined, -⟩ := readyRead_join_eraseDups new twoFiles
    (show (⟨[CMD_JOIN], [⟨0⟩, ⟨1⟩, ⟨0⟩]⟩ : Payload).data = CMD_JOIN :: [] from rfl) rfl (by decide)
  exact ⟨outfd, after, handled, joined⟩

end Commands

/-! ## The slave's loop -/

/-- `UnixSocketTestSlave::run()` once bound, against any peer: while `exit_` is false, each
message that arrives goes to `readyRead`, in the order sent. The slave, the kernel, the
replies sent, and the messages never received; `none` where a message has undefined
behaviour. -/
def serve (slave : UnixSocketTestSlave) (files : Files) :
    List Payload → Option (UnixSocketTestSlave × Files × List Payload × List Payload)
  | [] => some (slave, files, [], [])
  | message :: rest =>
      if slave.exit then some (slave, files, [], message :: rest)
      else
        (slave.readyRead files message).bind fun handled =>
          (serve handled.1 handled.2.1 rest).map fun served =>
            (served.1, served.2.1, handled.2.2.toList ++ served.2.2.1, served.2.2.2)

/-- Over any sequence of messages, the slave changes only descriptions that a message
carries, and every descriptor it sends back names a description it created. -/
theorem serve_keeps (messages : List Payload) :
    ∀ (slave : UnixSocketTestSlave) (files : Files)
      {served : UnixSocketTestSlave × Files × List Payload × List Payload},
      slave.serve files messages = some served →
        Files.Keeps (fun fd => ∃ message ∈ messages, fd ∈ message.fds) files served.2.1 ∧
        ∀ reply ∈ served.2.2.1, ∀ fd ∈ reply.fds,
          files.descriptions.length ≤ fd.description ∧
            fd.description < served.2.1.descriptions.length := by
  induction messages with
  | nil =>
      intro slave files served ran
      cases ran
      exact ⟨.refl _ files, by simp⟩
  | cons message rest inductionHypothesis =>
      intro slave files served ran
      by_cases stopped : slave.exit
      · simp only [serve, stopped, if_true] at ran
        cases ran
        exact ⟨.refl _ files, by simp⟩
      · simp only [serve, stopped, Bool.false_eq_true, if_false] at ran
        obtain ⟨handled, handledEq, ran⟩ := Option.bind_eq_some.1 ran
        obtain ⟨later, laterRan, rfl⟩ := Option.map_eq_some'.1 ran
        obtain ⟨stepKeeps, stepFresh⟩ := readyRead_keeps slave files handledEq
        obtain ⟨runKeeps, runFresh⟩ := inductionHypothesis _ _ laterRan
        refine ⟨(stepKeeps.mono fun fd _ now => ⟨message, List.mem_cons_self _ _, now⟩).trans
          (runKeeps.mono fun fd _ ⟨other, otherIn, carried⟩ => ⟨other, List.mem_cons_of_mem _ otherIn, carried⟩),
          fun reply member fd carried => ?_⟩
        rcases List.mem_append.1 member with now | afterwards
        · have fresh := stepFresh reply now fd carried
          exact ⟨fresh.1, lt_of_lt_of_le fresh.2 runKeeps.length_le⟩
        · have fresh := runFresh reply afterwards fd carried
          exact ⟨stepKeeps.length_le.trans fresh.1, fresh.2⟩

section Runs

variable {slave : UnixSocketTestSlave} {files : Files} {messages : List Payload}
  {served : UnixSocketTestSlave × Files × List Payload × List Payload}

/-- Over any sequence of messages, the slave leaves as it was every open description that no
message carries: it reads, writes and repositions only the files it is sent. -/
theorem serve_untouched (ran : slave.serve files messages = some served) {fd : Fd}
    (opened : files.get fd ≠ none) (absent : ∀ message ∈ messages, fd ∉ message.fds) :
    served.2.1.get fd = files.get fd :=
  (serve_keeps messages slave files ran).1.get_eq fd ((files.get_ne_none_iff fd).1 opened)
    fun ⟨message, member, carried⟩ => absent message member carried

/-- A join, a sum and a close, then a message the slave never receives. -/
def sampleMessages : List Payload :=
  [⟨[CMD_JOIN], [⟨0⟩, ⟨0⟩]⟩, ⟨[CMD_LEN_CALC], [⟨0⟩, ⟨5⟩]⟩, ⟨[CMD_CLOSE], []⟩, ⟨[CMD_REVERSE, 7], []⟩]

theorem serve_untouched_second_file :
    (new.serve twoFiles sampleMessages).map (fun served => served.2.1.get ⟨1⟩) =
      some (twoFiles.get ⟨1⟩) := by
  obtain ⟨served, ran⟩ := Option.isSome_iff_exists.1
    (show (new.serve twoFiles sampleMessages).isSome from by decide)
  rw [ran, Option.map_some', serve_untouched ran (by decide) (by decide)]

/-- Over any sequence of messages, every descriptor the slave sends back names a
description created during the run: none that existed before the slave started. -/
theorem serve_replies_fresh (ran : slave.serve files messages = some served) :
    ∀ reply ∈ served.2.2.1, ∀ fd ∈ reply.fds,
      files.get fd = none ∧ fd.description < served.2.1.descriptions.length :=
  fun reply member fd carried => by
    have fresh := (serve_keeps messages slave files ran).2 reply member fd carried
    refine ⟨?_, fresh.2⟩
    by_contra openBefore
    exact absurd ((files.get_ne_none_iff fd).1 openBefore) (Nat.not_lt.2 fresh.1)

theorem serve_replies_fresh_join :
    twoFiles.get ⟨2⟩ = none ∧ ∃ served, new.serve twoFiles sampleMessages = some served ∧
      ⟨[CMD_JOIN], [⟨2⟩]⟩ ∈ served.2.2.1 := by
  obtain ⟨served, ran⟩ := Option.isSome_iff_exists.1
    (show (new.serve twoFiles sampleMessages).isSome from by decide)
  have member : ⟨[CMD_JOIN], [⟨2⟩]⟩ ∈ served.2.2.1 := by
    have replies : (new.serve twoFiles sampleMessages).map (fun served => served.2.2.1) =
        some [⟨[CMD_JOIN], [⟨2⟩]⟩, ⟨[CMD_LEN_CALC, 1, 0, 0, 0], []⟩] := by
      decide
    rw [ran, Option.map_some', Option.some.injEq] at replies
    simp [replies]
  exact ⟨(serve_replies_fresh ran _ member ⟨2⟩ (List.mem_singleton_self _)).1, served, ran, member⟩

end Runs

end UnixSocketTestSlave

end Libcamera.Ipc
