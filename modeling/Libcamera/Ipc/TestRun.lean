import Libcamera.Ipc.FdOrder

/-!
Contract: what every run of `test/ipc/unixsocket.cpp` keeps, whatever the order in which
the two processes take their steps and whenever the master's timer expires.

Owns: the messages each phase of the master puts in flight and the replies it gets back;
`System.Invariant`, which says phase by phase what is in flight and what the files hold;
that no enabled step reaches undefined behaviour; that a run without a timeout never gets
stuck before the test passes; and that every run ends within 15 steps.

Does not own: the code (`UnixSocketTest`, `Slave`), nor the loops of `testFdOrder` and
`CMD_JOIN` for any strings (`FdOrder`).

What the test needs from its machine is of two kinds. Two facts are hypotheses: `/tmp`
supports `O_TMPFILE`, and seven times the length of the executable fits in an `int`. The
rest the model takes by construction: `ipc_.create()`, `fork()` and `execl()` succeed, so
a run starts with the slave bound to its end of the socket; `open("/proc/self/exe")` always
succeeds, and `dup`, `write` and `lseek` on descriptors the process holds do; and the socket
delivers every message whole, with its descriptors, in the order sent.
-/

set_option autoImplicit false

namespace Libcamera.Ipc

open IPCUnixSocket UnixSocketTest

/-- The waits left before the master returns from `run()`. -/
def Master.rank : Master → Nat
  | .starting => 5
  | .reversing => 4
  | .calculating _ => 3
  | .joining _ => 2
  | .stopping => 1
  | .finished _ => 0

namespace UnixSocketTest

/-! ## The messages of a run -/

/-- The slave's reply to `testReverse`. -/
def reverseReply : Payload :=
  ⟨[CMD_REVERSE, 5, 4, 3, 2, 1], []⟩

/-- The message of `testCalc`, on two duplicates of `fd`. -/
def calcMessage (fd : Fd) : Payload :=
  ⟨[CMD_LEN_CALC], [fd, fd]⟩

/-- The slave's reply to `testCalc`. -/
def calcReply (size : Int) : Payload :=
  ⟨CMD_LEN_CALC :: intBytes (toInt32 size), []⟩

/-- The message of `testCmp`, on seven duplicates of `fd`. -/
def cmpMessage (fd : Fd) (size : Int) : Payload :=
  ⟨CMD_LEN_CMP :: intBytes (toInt32 size), List.replicate 7 fd⟩

/-- The message of `testFdOrder`. -/
def joinMessage (foo bar : Fd) : Payload :=
  ⟨[CMD_JOIN], [foo, bar]⟩

/-- The message that closes the slave. -/
def closeMessage : Payload :=
  ⟨[CMD_CLOSE], []⟩

/-! ## The master's code on the replies it expects -/

/-- The loop of `prepareFDs` on a descriptor the master holds of a rewound description,
while the sum stays an `int`: `n` more clones, each of the same description, and `n` times
the length of its file added to `size`. -/
theorem cloneFDs_held {fd : Fd} {data : List UInt8} (n : Nat) : ∀ (files : Files) (size : Int),
    fd ∈ files.held .master → files.get fd = some ⟨data, 0⟩ → 0 ≤ size →
      size + n * data.length < 2 ^ 31 →
      cloneFDs fd n files size =
        some (true, size + n * data.length, List.replicate n fd, files.hold .master (List.replicate n fd)) := by
  induction n with
  | zero => intro files size _ _ _ _; simp [cloneFDs, Files.hold_nil]
  | succ n inductionHypothesis =>
      intro files size holds found nonneg fits
      have product : 0 ≤ (n : Int) * data.length := Int.mul_nonneg (Int.ofNat_nonneg _) (Int.ofNat_nonneg _)
      rw [Nat.cast_succ, Int.add_mul, Int.one_mul] at fits ⊢
      have sumFits : isInt (size + data.length) = true := (isInt_iff _).2 (by omega)
      have lengthFits : isInt (data.length : Int) = true := (isInt_iff _).2 (by omega)
      have cloned : fd ∈ (files.hold .master [fd]).held .master := by simp
      have clonedFound : (files.hold .master [fd]).find .master fd = some ⟨data, 0⟩ := by
        rw [Files.find_of_held _ _ cloned, Files.get_hold, found]
      have length : calculateLength (files.hold .master [fd]) .master fd =
          ((data.length : Int), files.hold .master [fd]) := by
        rw [calculateLength_of_find clonedFound, toInt_of_isInt lengthFits,
          Files.set_of_get _ _ _ ((Files.find_eq_some _ _).1 clonedFound).2]
      simp only [cloneFDs, Files.dup_of_held holds, length]
      rw [show addInt size (data.length : Int) = some (size + data.length) from
          addInt_eq_some_iff.2 ⟨sumFits, rfl⟩, Option.some_bind,
        inductionHypothesis _ _ cloned (by rw [Files.get_hold, found]) (by omega) (by omega),
        Option.map_some', Files.hold_hold, List.replicate_succ]
      have sumEq : size + data.length + n * data.length = size + (n * data.length + data.length) := by
        omega
      rw [sumEq]
      rfl

/-- `prepareFDs` on an empty message, where the sum stays an `int`, adds `num` duplicates
of a new, rewound description of the executable, and returns the sum of their lengths; it
changes no description open before. -/
theorem prepareFDs_empty (files : Files) (num : Nat) (fits : num * files.exe.length < 2 ^ 31) :
    ∃ after : Files, prepareFDs files ⟨[], []⟩ num =
        some ((num : Int) * files.exe.length, ⟨[], List.replicate num (files.openExe .master).1⟩, after) ∧
      after.get (files.openExe .master).1 = some ⟨files.exe, 0⟩ ∧ after.exe = files.exe ∧
      after.tmpfileSupported = files.tmpfileSupported ∧
      ∀ fd, files.get fd ≠ none → after.get fd = files.get fd := by
  have opened : (files.openExe .master).2.get (files.openExe .master).1 = some ⟨files.exe, 0⟩ := by
    rw [Files.openExe, Files.get_create, if_pos rfl]
  have holds : (files.openExe .master).1 ∈ (files.openExe .master).2.held .master := by
    simp [Files.openExe, Files.create]
  have cloned := cloneFDs_held num _ 0 holds opened (Int.le_refl 0) (by rw [Int.zero_add]; exact_mod_cast fits)
  refine ⟨(((files.openExe .master).2.hold .master (List.replicate num (files.openExe .master).1)).close
    .master (files.openExe .master).1).2, by simp [prepareFDs, cloned], by simp [opened],
    by simp [Files.openExe], by simp [Files.openExe], fun fd openFd => ?_⟩
  have fresh := Files.push_ne_of_get files ⟨files.exe, 0⟩ openFd
  simp only [Files.get_close, Files.get_hold, Files.openExe, Files.get_create, Files.create_fst]
  rw [if_neg (Ne.symm fresh)]

/-- On the slave's reply to `testReverse`, the master passes it, sees an empty message
refused, and sends `testCalc`'s message on a new description of the executable. -/
theorem afterReverse_reverseReply {files : Files} (fits : 2 * files.exe.length < 2 ^ 31) :
    ∃ after : Files, afterReverse files reverseReply =
        some (.calculating (2 * files.exe.length), after, [calcMessage (files.openExe .master).1]) ∧
      after.get (files.openExe .master).1 = some ⟨files.exe, 0⟩ ∧ after.exe = files.exe ∧
      after.tmpfileSupported = files.tmpfileSupported := by
  obtain ⟨after, prepared, opened, sameExe, sameTmp, -⟩ := prepareFDs_empty files 2 fits
  refine ⟨after, ?_, opened, sameExe, sameTmp⟩
  have nonneg : ¬(2 * (files.exe.length : Int) < 0) := by omega
  simp [afterReverse, reverseReply, reverseMessage, send, prepared, nonneg, calcMessage,
    CMD_REVERSE, CMD_LEN_CALC]

/-- On the slave's reply to `testCalc`, the master passes it, sends `testCmp`'s message on a
new description of the executable, and sends `testFdOrder`'s message on two new files. -/
theorem afterCalc_calcReply {files : Files} (supported : files.tmpfileSupported = true)
    (fits : 7 * files.exe.length < 2 ^ 31) :
    ∃ foo bar written, afterCalc files (2 * files.exe.length) (calcReply (2 * files.exe.length)) =
        some (.joining [foo, bar], written,
          [cmpMessage (files.openExe .master).1 (7 * files.exe.length), joinMessage foo bar]) ∧
      foo ≠ bar ∧ written.get (files.openExe .master).1 = some ⟨files.exe, 0⟩ ∧
      written.get foo = some ⟨[70, 111, 111], 0⟩ ∧ written.get bar = some ⟨[66, 97, 114], 0⟩ ∧
      written.tmpfileSupported = true := by
  obtain ⟨after, prepared, opened, -, sameTmp, -⟩ := prepareFDs_empty files 7 fits
  obtain ⟨fds, written, wrote, contents, -, distinct, writtenSupported, keeps, -⟩ :=
    writeStrings_fresh fdOrderStrings after (by rw [sameTmp, supported])
  obtain ⟨foo, bar, rfl⟩ : ∃ foo bar, fds = [foo, bar] := by
    have sameLength := congrArg List.length contents
    rcases fds with _ | ⟨foo, _ | ⟨bar, _ | ⟨_, _⟩⟩⟩ <;> simp [fdOrderStrings] at sameLength
    exact ⟨foo, bar, rfl⟩
  simp only [List.map_cons, List.map_nil, fdOrderStrings, List.cons.injEq] at contents
  refine ⟨foo, bar, written, ?_, by simpa using distinct,
    by rw [keeps.get_eq _ ((after.get_ne_none_iff _).1 (by rw [opened]; exact Option.some_ne_none _)) id,
      opened], contents.1, contents.2.1, writtenSupported⟩
  have decoded := bytesInt_intBytes (toInt32 (2 * files.exe.length)) []
  rw [List.append_nil] at decoded
  have sizeIn : signed (toInt32 (2 * files.exe.length)) = 2 * files.exe.length :=
    signed_toInt32 ((isInt_iff _).2 (by omega))
  have nonneg : ¬(7 * (files.exe.length : Int) < 0) := by omega
  simp [afterCalc, calcReply, decoded, sizeIn, prepared, nonneg, send, wrote, cmpMessage, joinMessage]

/-- On the slave's reply to `testFdOrder`, a new descriptor the master holds of a file holding
"FooBar", the master closes its two files, reads "Foo" then "Bar" from it, sends
`CMD_CLOSE`, and waits for the slave to exit. -/
theorem afterJoin_joinReply {files : Files} {foo bar joined : Fd}
    (found : files.get joined = some ⟨[70, 111, 111, 66, 97, 114], 0⟩)
    (holds : joined ∈ files.held .master) (notFoo : joined ≠ foo) (notBar : joined ≠ bar) :
    ∃ checked, afterJoin files [foo, bar] ⟨[CMD_JOIN], [joined]⟩ = some (.stopping, checked, [closeMessage]) := by
  have read := readStrings_flatten joined fdOrderStrings [foo, bar] files _ [] le_rfl
    (by simp [notFoo, notBar]) holds found rfl
  obtain ⟨⟨ok, checked⟩, readEq, okEq⟩ := Option.map_eq_some'.1 read
  cases okEq
  exact ⟨(checked.close .master joined).2, by simp [afterJoin, readEq, send, closeMessage]⟩

/-! ## How far each step of the master goes -/

theorem send_length (payload : Payload) : (send payload).2.toList.length ≤ 1 := by
  unfold send
  split <;> simp

theorem startRun_bound : 3 * startRun.1.rank + startRun.2.length < 15 := by
  decide

theorem afterReverse_bound {files : Files} {response : Payload} {next : Master × Files × List Payload}
    (resumed : afterReverse files response = some next) : 3 * next.1.rank + next.2.2.length < 12 := by
  unfold afterReverse at resumed
  split at resumed
  · cases resumed
  · have emptySent := send_length ⟨[], []⟩
    dsimp only at resumed
    generalize send ⟨[], []⟩ = empty at resumed emptySent
    split_ifs at resumed
    · cases resumed
      simp [Master.rank]
    · cases resumed
      simp only [Master.rank]
      omega
    · obtain ⟨prepared, -, rfl⟩ := Option.map_eq_some'.1 resumed
      have sent := send_length ⟨prepared.2.1.data ++ [CMD_LEN_CALC], prepared.2.1.fds⟩
      split_ifs <;> simp only [Master.rank, List.length_nil] <;> omega

theorem afterCalc_bound {files : Files} {sizeOut : Int} {response : Payload}
    {next : Master × Files × List Payload}
    (resumed : afterCalc files sizeOut response = some next) : 3 * next.1.rank + next.2.2.length < 9 := by
  obtain ⟨sizeIn, -, resumed⟩ := Option.bind_eq_some.1 resumed
  split_ifs at resumed
  · cases resumed
    simp [Master.rank]
  · obtain ⟨prepared, -, rfl⟩ := Option.map_eq_some'.1 resumed
    dsimp only
    have compared := send_length ⟨CMD_LEN_CMP :: intBytes (toInt32 prepared.1), prepared.2.1.fds⟩
    generalize send ⟨CMD_LEN_CMP :: intBytes (toInt32 prepared.1), prepared.2.1.fds⟩ = compare at compared ⊢
    generalize writeStrings prepared.2.2 fdOrderStrings = written
    split_ifs
    · simp [Master.rank]
    · simp only [Master.rank]
      omega
    · split
      · simp only [Master.rank]
        omega
      · rename_i fds _
        have sent := send_length ⟨[CMD_JOIN], fds⟩
        split_ifs <;> simp only [Master.rank, List.length_append] <;> omega

theorem afterJoin_bound {files : Files} {fds : List Fd} {response : Payload}
    {next : Master × Files × List Payload}
    (resumed : afterJoin files fds response = some next) : 3 * next.1.rank + next.2.2.length < 6 := by
  unfold afterJoin at resumed
  split at resumed
  · cases resumed
  · obtain ⟨checked, -, rfl⟩ := Option.map_eq_some'.1 resumed
    have sent := send_length ⟨[CMD_CLOSE], []⟩
    dsimp only
    split_ifs <;> simp only [Master.rank, List.length_nil] <;> omega

/-! ## The slave's code on the messages it gets -/

section Slave

variable (slave : UnixSocketTestSlave) {files : Files} {exe : List UInt8} {fd : Fd}

theorem readyRead_reverseMessage (files : Files) :
    slave.readyRead files reverseMessage = some (slave, files, some reverseReply) := by
  rw [UnixSocketTestSlave.readyRead_reverse slave files rfl, receive_of_nil rfl]
  rfl

/-- The slave's descriptor of `fd` once it has received a message carrying it. -/
theorem find_received {message : Payload} {file : OpenFile} (found : files.get fd = some file)
    (carried : fd ∈ message.fds) : (receive files .slave message).find .slave fd = some file := by
  rw [Files.find_of_held _ _ (by simp [receive, carried]), receive, Files.get_hold, found]

theorem readyRead_calcMessage (found : files.get fd = some ⟨exe, 0⟩) (fits : 2 * exe.length < 2 ^ 31) :
    slave.readyRead files (calcMessage fd) =
      some (slave, receive files .slave (calcMessage fd), some (calcReply (2 * exe.length))) := by
  rw [UnixSocketTestSlave.readyRead_lenCalc slave files rfl]
  have summed := sumLengths_replicate (find_received found (show fd ∈ (calcMessage fd).fds by simp [calcMessage]))
    2 0 (Int.le_refl 0) (by push_cast; omega)
  simp only [calcMessage, show [fd, fd] = List.replicate 2 fd from rfl] at summed ⊢
  rw [summed]
  simp [calcReply]

theorem readyRead_cmpMessage (found : files.get fd = some ⟨exe, 0⟩) (fits : 7 * exe.length < 2 ^ 31) :
    slave.readyRead files (cmpMessage fd (7 * exe.length)) =
      some (slave, receive files .slave (cmpMessage fd (7 * exe.length)), none) := by
  have decoded := bytesInt_intBytes (toInt32 (7 * exe.length)) []
  rw [List.append_nil] at decoded
  have sizeIn : signed (toInt32 (7 * exe.length)) = 7 * exe.length :=
    signed_toInt32 ((isInt_iff _).2 (by omega))
  have summed := sumLengths_replicate (find_received found
    (show fd ∈ (cmpMessage fd (7 * exe.length)).fds by simp [cmpMessage])) 7 0 (Int.le_refl 0) (by push_cast; omega)
  rw [UnixSocketTestSlave.readyRead_lenCmp slave files rfl]
  simp only [cmpMessage] at summed ⊢
  rw [summed]
  simp [decoded, sizeIn]

theorem readyRead_joinMessage (supported : files.tmpfileSupported = true) {foo bar : Fd}
    (distinct : foo ≠ bar) (fooFound : files.get foo = some ⟨[70, 111, 111], 0⟩)
    (barFound : files.get bar = some ⟨[66, 97, 114], 0⟩) :
    ∃ joined after, files.get joined = none ∧ slave.readyRead files (joinMessage foo bar) =
        some (slave, after, some ⟨[CMD_JOIN], [joined]⟩) ∧
      after.get joined = some ⟨[70, 111, 111, 66, 97, 114], 0⟩ := by
  obtain ⟨joined, after, fresh, handled, found⟩ := UnixSocketTestSlave.readyRead_join_fresh slave
    supported (show ∀ fd ∈ [foo, bar], files.get fd ≠ none by simp [fooFound, barFound])
    (by simp [distinct])
  refine ⟨joined, after, fresh, handled, ?_⟩
  rw [found]
  simp [UnixSocketTestSlave.unread, fooFound, barFound]

end Slave

end UnixSocketTest

/-! ## What every interleaving keeps -/

namespace System

/-- The messages that may be in flight to the slave, in a test whose executable is `exe`:
none; the message of `testReverse`, of `CMD_CLOSE` or of `testFdOrder`; the message of
`testCalc` on a rewound description of the executable; or that of `testCmp` on one, then
that of `testFdOrder`. -/
def InFlight (exe : List UInt8) (files : Files) (messages : List Payload) : Prop :=
  messages = [] ∨ messages = [reverseMessage] ∨ messages = [closeMessage] ∨
    (∃ foo bar, messages = [joinMessage foo bar]) ∨
    (∃ fd, files.get fd = some ⟨exe, 0⟩ ∧ messages = [calcMessage fd]) ∨
    ∃ fd foo bar, files.get fd = some ⟨exe, 0⟩ ∧
      messages = [cmpMessage fd (7 * exe.length), joinMessage foo bar]

/-- What every interleaving keeps, phase by phase, in a test whose executable is `exe`: the
messages in flight are the master's last messages or the slave's reply to them, the slave
has not stopped before `CMD_CLOSE`, and each description a message refers to holds what
the sender put there. Once the master has returned, it has passed, or a timer expired and
what is still in flight to the slave is among the messages the test sends. -/
def Invariant (exe : List UInt8) (system : System) : Prop :=
  match system.master with
  | .starting =>
      system.files.exe = exe ∧ system.files.tmpfileSupported = true ∧ system.slave = .new ∧
        system.toSlave = [] ∧ system.toMaster = []
  | .reversing =>
      system.files.exe = exe ∧ system.files.tmpfileSupported = true ∧ system.slave = .new ∧
        (system.toSlave = [reverseMessage] ∧ system.toMaster = [] ∨
          system.toSlave = [] ∧ system.toMaster = [reverseReply])
  | .calculating sizeOut =>
      system.files.exe = exe ∧ system.files.tmpfileSupported = true ∧ system.slave = .new ∧
        sizeOut = 2 * exe.length ∧ ∃ fd, system.files.get fd = some ⟨exe, 0⟩ ∧
          (system.toSlave = [calcMessage fd] ∧ system.toMaster = [] ∨
            system.toSlave = [] ∧ system.toMaster = [calcReply sizeOut])
  | .joining fds =>
      system.slave = .new ∧ ∃ foo bar, fds = [foo, bar] ∧ foo ≠ bar ∧
        ((system.files.tmpfileSupported = true ∧ system.toMaster = [] ∧
            system.files.get foo = some ⟨[70, 111, 111], 0⟩ ∧
            system.files.get bar = some ⟨[66, 97, 114], 0⟩ ∧
            (system.toSlave = [joinMessage foo bar] ∨ ∃ fd, system.files.get fd = some ⟨exe, 0⟩ ∧
              system.toSlave = [cmpMessage fd (7 * exe.length), joinMessage foo bar])) ∨
          ∃ joined, system.files.get joined = some ⟨[70, 111, 111, 66, 97, 114], 0⟩ ∧
            joined ≠ foo ∧ joined ≠ bar ∧ system.toSlave = [] ∧
            system.toMaster = [⟨[CMD_JOIN], [joined]⟩])
  | .stopping =>
      system.toMaster = [] ∧ (system.toSlave = [closeMessage] ∧ system.slave = .new ∨
        system.toSlave = [] ∧ system.slave = UnixSocketTestSlave.new.stop 0)
  | .finished result =>
      (system.timedOut = true ∧ InFlight exe system.files system.toSlave) ∨
        (result = TestPass ∧ system.toSlave = [] ∧ system.slave = UnixSocketTestSlave.new.stop 0)

theorem startRun_eq : startRun = (.reversing, [reverseMessage]) := by
  decide

section InFlight

variable {exe : List UInt8} {files : Files} {message : Payload} {rest : List Payload}

/-- The slave handles the first message in flight without undefined behaviour. -/
theorem InFlight.readyRead_isSome (small : 7 * exe.length < 2 ^ 31) (slave : UnixSocketTestSlave)
    (inFlight : InFlight exe files (message :: rest)) : (slave.readyRead files message).isSome := by
  rcases inFlight with empty | ⟨rfl, -⟩ | ⟨rfl, -⟩ | ⟨foo, bar, rfl, -⟩ | ⟨fd, found, rfl, -⟩ |
    ⟨fd, foo, bar, found, rfl, -⟩
  · cases empty
  · simp [readyRead_reverseMessage]
  · simp [UnixSocketTestSlave.readyRead_close slave files (show closeMessage.data = CMD_CLOSE :: [] from rfl)]
  · exact UnixSocketTestSlave.readyRead_join_isSome slave files rfl
  · simp [readyRead_calcMessage slave found (by omega)]
  · simp [readyRead_cmpMessage slave found small]

/-- What is in flight behind the first message is in flight whatever the files: it is at
most the message of `testFdOrder`. -/
theorem InFlight.tail (inFlight : InFlight exe files (message :: rest)) (other : Files) :
    InFlight exe other rest := by
  rcases inFlight with empty | ⟨-, rfl⟩ | ⟨-, rfl⟩ | ⟨foo, bar, ⟨-, rfl⟩⟩ | ⟨fd, found, ⟨-, rfl⟩⟩ |
    ⟨fd, foo, bar, found, ⟨rfl, rfl⟩⟩
  · cases empty
  · exact .inl rfl
  · exact .inl rfl
  · exact .inl rfl
  · exact .inl rfl
  · exact .inr (.inr (.inr (.inl ⟨foo, bar, rfl⟩)))

end InFlight

/-- Under the invariant, what is in flight to the slave is among the messages the test
sends. -/
theorem Invariant.inFlight {exe : List UInt8} {system : System} (invariant : system.Invariant exe) :
    InFlight exe system.files system.toSlave := by
  obtain ⟨master, slave, files, toSlave, toMaster, timedOut⟩ := system
  cases master <;> dsimp only [Invariant] at invariant
  case starting => exact .inl invariant.2.2.2.1
  case reversing =>
    obtain ⟨-, -, -, ⟨rfl, -⟩ | ⟨rfl, -⟩⟩ := invariant
    · exact .inr (.inl rfl)
    · exact .inl rfl
  case calculating =>
    obtain ⟨-, -, -, -, fd, found, ⟨rfl, -⟩ | ⟨rfl, -⟩⟩ := invariant
    · exact .inr (.inr (.inr (.inr (.inl ⟨fd, found, rfl⟩))))
    · exact .inl rfl
  case joining =>
    obtain ⟨-, foo, bar, -, -, ⟨-, -, -, -, rfl | ⟨fd, found, rfl⟩⟩ | ⟨joined, -, -, -, rfl, -⟩⟩ := invariant
    · exact .inr (.inr (.inr (.inl ⟨foo, bar, rfl⟩)))
    · exact .inr (.inr (.inr (.inr (.inr ⟨fd, foo, bar, found, rfl⟩))))
    · exact .inl rfl
  case stopping =>
    obtain ⟨-, ⟨rfl, -⟩ | ⟨rfl, -⟩⟩ := invariant
    · exact .inr (.inr (.inl rfl))
    · exact .inl rfl
  case finished =>
    rcases invariant with ⟨-, inFlight⟩ | ⟨-, rfl, -⟩
    · exact inFlight
    · exact .inl rfl

/-- No step of either process, nor a timeout, leaves the invariant. -/
theorem Invariant.step {exe : List UInt8} (small : 7 * exe.length < 2 ^ 31) {system next : System}
    {event : Event} (invariant : system.Invariant exe) (stepped : system.step event = some next) :
    next.Invariant exe := by
  have inFlight := invariant.inFlight
  obtain ⟨master, slave, files, toSlave, toMaster, timedOut⟩ := system
  cases master with
  | starting =>
      dsimp only [Invariant] at invariant
      obtain ⟨exeEq, supported, rfl, rfl, rfl⟩ := invariant
      cases event <;> simp [System.step, startRun_eq, UnixSocketTestSlave.new] at stepped
      subst stepped
      exact ⟨exeEq, supported, rfl, .inl ⟨rfl, rfl⟩⟩
  | reversing =>
      dsimp only [Invariant] at invariant
      obtain ⟨rfl, supported, rfl, ⟨rfl, rfl⟩ | ⟨rfl, rfl⟩⟩ := invariant
      · cases event <;> simp [System.step, readyRead_reverseMessage, UnixSocketTestSlave.new] at stepped <;>
          subst stepped
        · exact ⟨rfl, supported, rfl, .inr ⟨rfl, rfl⟩⟩
        · exact .inl ⟨rfl, inFlight⟩
      · obtain ⟨after, resumed, opened, sameExe, sameTmp⟩ := afterReverse_reverseReply
          (show 2 * files.exe.length < 2 ^ 31 by omega)
        cases event <;> simp [System.step, receive_of_nil (show reverseReply.fds = [] from rfl), resumed,
          resume, UnixSocketTestSlave.new] at stepped <;> subst stepped
        · exact ⟨sameExe, by rw [sameTmp, supported], rfl, rfl, _, opened, .inl ⟨rfl, rfl⟩⟩
        · exact .inl ⟨rfl, inFlight⟩
  | calculating sizeOut =>
      dsimp only [Invariant] at invariant
      obtain ⟨exeEq, supported, rfl, rfl, fd, found, ⟨rfl, rfl⟩ | ⟨rfl, rfl⟩⟩ := invariant
      · cases event <;> simp [System.step, readyRead_calcMessage _ found (show 2 * exe.length < 2 ^ 31 by omega),
          UnixSocketTestSlave.new] at stepped <;> subst stepped
        · exact ⟨by simp [receive, exeEq], by simp [receive, supported], rfl, rfl, fd,
            by simp [receive, found], .inr ⟨rfl, rfl⟩⟩
        · exact .inl ⟨rfl, inFlight⟩
      · subst exeEq
        obtain ⟨foo, bar, written, resumed, distinct, exeFound, fooFound, barFound, writtenSupported⟩ :=
          afterCalc_calcReply supported small
        cases event <;> simp [System.step, receive_of_nil (show (calcReply _).fds = [] from rfl), resumed,
          resume, UnixSocketTestSlave.new] at stepped <;> subst stepped
        · exact ⟨rfl, foo, bar, rfl, distinct, .inl ⟨writtenSupported, rfl, fooFound, barFound,
            .inr ⟨_, exeFound, rfl⟩⟩⟩
        · exact .inl ⟨rfl, inFlight⟩
  | joining fds =>
      dsimp only [Invariant] at invariant
      obtain ⟨rfl, foo, bar, rfl, distinct, ⟨supported, rfl, fooFound, barFound, rfl | ⟨fd, found, rfl⟩⟩ |
        ⟨joined, joinedFound, notFoo, notBar, rfl, rfl⟩⟩ := invariant
      · obtain ⟨joined, after, fresh, handled, joinedFound⟩ :=
          readyRead_joinMessage UnixSocketTestSlave.new supported distinct fooFound barFound
        have notFoo : joined ≠ foo := fun same => by simp [same, fooFound] at fresh
        have notBar : joined ≠ bar := fun same => by simp [same, barFound] at fresh
        cases event <;> simp [System.step, handled] at stepped <;> subst stepped
        · exact ⟨rfl, foo, bar, rfl, distinct, .inr ⟨joined, joinedFound, notFoo, notBar, rfl, rfl⟩⟩
        · exact .inl ⟨rfl, inFlight⟩
      · cases event <;> simp [System.step, readyRead_cmpMessage _ found small] at stepped <;> subst stepped
        · exact ⟨rfl, foo, bar, rfl, distinct, .inl ⟨by simp [receive, supported], rfl,
            by simp [receive, fooFound], by simp [receive, barFound], .inl rfl⟩⟩
        · exact .inl ⟨rfl, inFlight⟩
      · obtain ⟨checked, resumed⟩ := afterJoin_joinReply
          (show (receive files .master ⟨[CMD_JOIN], [joined]⟩).get joined = _ by simp [receive, joinedFound])
          (by simp [receive]) notFoo notBar
        cases event <;> simp [System.step, resumed, resume] at stepped <;> subst stepped
        · exact ⟨rfl, .inl ⟨rfl, rfl⟩⟩
        · exact .inl ⟨rfl, inFlight⟩
  | stopping =>
      dsimp only [Invariant] at invariant
      obtain ⟨rfl, ⟨rfl, rfl⟩ | ⟨rfl, rfl⟩⟩ := invariant
      · cases event <;> simp [System.step, UnixSocketTestSlave.new_exit,
          UnixSocketTestSlave.readyRead_close _ _ (show closeMessage.data = CMD_CLOSE :: [] from rfl)] at stepped
        subst stepped
        exact ⟨rfl, .inr ⟨rfl, rfl⟩⟩
      · cases event <;> simp [System.step, UnixSocketTestSlave.new_exit] at stepped
        subst stepped
        exact .inr ⟨by decide, rfl, rfl⟩
  | finished result =>
      dsimp only [Invariant] at invariant
      rcases invariant with ⟨rfl, -⟩ | ⟨rfl, rfl, rfl⟩
      · cases event <;> simp [System.step] at stepped
        split at stepped
        · obtain ⟨handled, handledEq, rfl⟩ := Option.map_eq_some'.1 stepped
          exact .inl ⟨rfl, inFlight.tail _⟩
        · cases stepped
      · cases event <;> simp [System.step, UnixSocketTestSlave.new_exit] at stepped

/-- Every state an interleaving reaches keeps the invariant, where `/tmp` supports
`O_TMPFILE` and seven times the length of the executable fits in an `int`. -/
theorem Reachable.invariant {files : Files} {system : System} (reachable : Reachable files system)
    (supported : files.tmpfileSupported = true) (small : 7 * files.exe.length < 2 ^ 31) :
    system.Invariant files.exe := by
  induction reachable with
  | new => exact ⟨rfl, supported, rfl, rfl, rfl⟩
  | step _ _ stepped inductionHypothesis => exact inductionHypothesis.step small stepped

/-- Under the invariant, no enabled step has undefined behaviour: the slave gets only the
messages of the test, on the files they were sent with, and the master gets only the
replies it expects. -/
theorem Invariant.step_isSome {exe : List UInt8} (small : 7 * exe.length < 2 ^ 31)
    {system : System} (invariant : system.Invariant exe) {event : Event}
    (enabled : system.enabled event = true) : (system.step event).isSome := by
  have inFlight := invariant.inFlight
  obtain ⟨master, slave, files, toSlave, toMaster, timedOut⟩ := system
  cases event with
  | slave =>
      cases toSlave with
      | nil => simp [System.enabled] at enabled
      | cons message rest =>
          simp only [System.enabled, Bool.and_eq_true, Bool.not_eq_true', List.isEmpty_cons] at enabled
          obtain ⟨handled, handledEq⟩ := Option.isSome_iff_exists.1 (inFlight.readyRead_isSome small slave)
          simp [System.step, enabled.1, handledEq]
  | timeout => cases master <;> simp_all [System.enabled, System.step]
  | master =>
      cases master <;> dsimp only [Invariant] at invariant
      case starting => simp [System.step]
      case reversing =>
        obtain ⟨exeEq, -, -, ⟨-, rfl⟩ | ⟨-, rfl⟩⟩ := invariant
        · simp [System.enabled] at enabled
        · obtain ⟨after, resumed, -⟩ := afterReverse_reverseReply
            (show 2 * files.exe.length < 2 ^ 31 by rw [exeEq]; omega)
          simp [System.step, receive_of_nil (show reverseReply.fds = [] from rfl), resumed]
      case calculating =>
        obtain ⟨rfl, supported, -, rfl, -, -, ⟨-, rfl⟩ | ⟨-, rfl⟩⟩ := invariant
        · simp [System.enabled] at enabled
        · obtain ⟨foo, bar, written, resumed, -⟩ := afterCalc_calcReply supported small
          simp [System.step, receive_of_nil (show (calcReply _).fds = [] from rfl), resumed]
      case joining =>
        obtain ⟨-, foo, bar, rfl, -, ⟨-, rfl, -⟩ | ⟨joined, joinedFound, notFoo, notBar, -, rfl⟩⟩ := invariant
        · simp [System.enabled] at enabled
        · obtain ⟨checked, resumed⟩ := afterJoin_joinReply
            (show (receive files .master ⟨[CMD_JOIN], [joined]⟩).get joined = _ by simp [receive, joinedFound])
            (by simp [receive]) notFoo notBar
          simp [System.step, resumed]
      case stopping => simp_all [System.enabled, System.step]
      case finished => simp [System.enabled] at enabled

/-- Under the invariant, a run in which no timer has expired is never stuck before the test
has passed: until `run()` returns `TestPass` with the slave stopped by `CMD_CLOSE`, a step
other than a timeout is enabled. -/
theorem Invariant.progress {exe : List UInt8} {system : System} (invariant : system.Invariant exe)
    (noTimeout : system.timedOut = false) :
    (system.master = .finished TestPass ∧ system.slave = UnixSocketTestSlave.new.stop 0) ∨
      ∃ event, event ≠ .timeout ∧ system.enabled event = true := by
  obtain ⟨master, slave, files, toSlave, toMaster, timedOut⟩ := system
  cases master with
  | starting => exact .inr ⟨.master, by decide, rfl⟩
  | reversing =>
      dsimp only [Invariant] at invariant
      obtain ⟨-, -, rfl, ⟨rfl, rfl⟩ | ⟨rfl, rfl⟩⟩ := invariant
      · exact .inr ⟨.slave, by decide, rfl⟩
      · exact .inr ⟨.master, by decide, rfl⟩
  | calculating sizeOut =>
      dsimp only [Invariant] at invariant
      obtain ⟨-, -, rfl, -, fd, -, ⟨rfl, rfl⟩ | ⟨rfl, rfl⟩⟩ := invariant
      · exact .inr ⟨.slave, by decide, rfl⟩
      · exact .inr ⟨.master, by decide, rfl⟩
  | joining fds =>
      dsimp only [Invariant] at invariant
      obtain ⟨rfl, foo, bar, -, -, ⟨-, -, -, -, rfl | ⟨fd, -, rfl⟩⟩ | ⟨joined, -, -, -, rfl, rfl⟩⟩ := invariant
      · exact .inr ⟨.slave, by decide, rfl⟩
      · exact .inr ⟨.slave, by decide, rfl⟩
      · exact .inr ⟨.master, by decide, rfl⟩
  | stopping =>
      dsimp only [Invariant] at invariant
      obtain ⟨-, ⟨rfl, rfl⟩ | ⟨rfl, rfl⟩⟩ := invariant
      · exact .inr ⟨.slave, by decide, rfl⟩
      · exact .inr ⟨.master, by decide, rfl⟩
  | finished result =>
      dsimp only [Invariant] at invariant
      rcases invariant with ⟨timedOut, -⟩ | ⟨rfl, -, rfl⟩
      · simp_all
      · exact .inl ⟨rfl, rfl⟩

/-! ## Every run ends -/

/-- A bound on the steps left: three for each wait the master has still to pass, and one
for each message the slave has still to receive. -/
def measure (system : System) : Nat :=
  3 * system.master.rank + system.toSlave.length

/-- The master passes a wait of `call()` when what it sends before its next wait is bounded
by what passing the wait gains. -/
theorem measure_resume {system : System} {rest : List Payload} {next : Master × Files × List Payload}
    (bound : 3 * next.1.rank + next.2.2.length < 3 * system.master.rank) :
    (system.resume rest next).measure < system.measure := by
  simp only [measure, resume, List.length_append]
  omega

theorem step_measure {system next : System} {event : Event} (stepped : system.step event = some next) :
    next.measure < system.measure := by
  obtain ⟨master, slave, files, toSlave, toMaster, timedOut⟩ := system
  cases event with
  | master =>
      simp only [System.step] at stepped
      split at stepped
      · cases stepped
        have bound := startRun_bound
        simp only [measure, List.length_append, Master.rank] at bound ⊢
        omega
      · obtain ⟨_, afterEq, rfl⟩ := Option.map_eq_some'.1 stepped
        exact measure_resume (afterReverse_bound afterEq)
      · obtain ⟨_, afterEq, rfl⟩ := Option.map_eq_some'.1 stepped
        exact measure_resume (afterCalc_bound afterEq)
      · obtain ⟨_, afterEq, rfl⟩ := Option.map_eq_some'.1 stepped
        exact measure_resume (afterJoin_bound afterEq)
      · split_ifs at stepped
        cases stepped
        simp [measure, afterWait, Master.rank]
      · cases stepped
  | slave =>
      simp only [System.step] at stepped
      split at stepped
      · obtain ⟨handled, -, rfl⟩ := Option.map_eq_some'.1 stepped
        simp [measure]
      · cases stepped
  | timeout =>
      simp only [System.step] at stepped
      split at stepped <;> cases stepped <;> simp [measure, Master.rank]

/-- A run is no longer than the bound it starts from. -/
theorem run_length_le {system final : System} {events : List Event}
    (ran : system.run events = some final) : events.length ≤ system.measure := by
  induction events generalizing system with
  | nil => exact Nat.zero_le _
  | cons event rest inductionHypothesis =>
      obtain ⟨next, stepped, ranRest⟩ := Option.bind_eq_some.1 ran
      have shorter := step_measure stepped
      have restBound := inductionHypothesis ranRest
      rw [List.length_cons]
      omega

theorem Reachable.run {files : Files} {system final : System} {events : List Event}
    (reachable : Reachable files system) (ran : system.run events = some final) :
    Reachable files final := by
  induction events generalizing system with
  | nil => exact Option.some.inj ran ▸ reachable
  | cons event rest inductionHypothesis =>
      obtain ⟨next, stepped, ranRest⟩ := Option.bind_eq_some.1 ran
      exact inductionHypothesis (.step event reachable stepped) ranRest

end System

/-- The test passes under every interleaving of its two processes, on a machine whose `/tmp`
supports `O_TMPFILE` and whose test executable is shorter than 2^31 / 7 bytes, and where, as
the model takes by construction, `ipc_.create()`, `fork()` and `execl()` succeed, the open of
`/proc/self/exe` succeeds, `dup`, `write` and `lseek` on held descriptors succeed, and the
socket delivers each message whole, with its descriptors, in the order sent. Along any run:
no enabled step has undefined behaviour; once `run()` has returned, it returned `TestPass`,
unless the timer of a `call()` expired; if no timer expired and no step but a timeout can
happen, `run()` has returned `TestPass` and the slave has exited with code 0; and the run
has at most 15 steps, so every run without a timeout can be continued until the test
passes. -/
theorem unixSocketTest_passes {files : Files} (supported : files.tmpfileSupported = true)
    (small : 7 * files.exe.length < 2 ^ 31) {events : List Event} {final : System}
    (ran : (System.new files).run events = some final) :
    (∀ event, final.enabled event = true → (final.step event).isSome) ∧
    (∀ result, final.master = .finished result → result = TestPass ∨ final.timedOut = true) ∧
    (final.timedOut = false → (∀ event, event ≠ .timeout → final.enabled event = false) →
      final.master = .finished TestPass ∧ final.slave.exitCode = 0) ∧
    events.length ≤ 15 := by
  have invariant := (System.Reachable.new.run ran).invariant supported small
  refine ⟨fun _ enabled => invariant.step_isSome small enabled, fun result finished => ?_,
    fun noTimeout stuck => ?_, System.run_length_le ran⟩
  · simp only [System.Invariant, finished] at invariant
    rcases invariant with ⟨timedOut, -⟩ | ⟨passed, -⟩
    · exact .inr timedOut
    · exact .inl passed
  · rcases invariant.progress noTimeout with ⟨passed, stopped⟩ | ⟨event, notTimeout, enabled⟩
    · exact ⟨passed, by rw [stopped]; rfl⟩
    · rw [stuck event notTimeout] at enabled
      cases enabled

theorem unixSocketTest_passes_in_order :
    sampleFiles.tmpfileSupported = true ∧ 7 * sampleFiles.exe.length < 2 ^ 31 ∧
    ∃ final, (System.new sampleFiles).run
        [.master, .slave, .master, .slave, .master, .slave, .slave, .master, .slave, .master] =
        some final ∧ final.master = .finished TestPass ∧
      ((∀ event, final.enabled event = true → (final.step event).isSome) ∧
        (∀ result, final.master = .finished result → result = TestPass ∨ final.timedOut = true) ∧
        (final.timedOut = false → (∀ event, event ≠ .timeout → final.enabled event = false) →
          final.master = .finished TestPass ∧ final.slave.exitCode = 0) ∧
        [Event.master, .slave, .master, .slave, .master, .slave, .slave, .master, .slave,
          .master].length ≤ 15) :=
  have ran : (System.new sampleFiles).run
      [.master, .slave, .master, .slave, .master, .slave, .slave, .master, .slave, .master] =
      some (((System.new sampleFiles).run
        [.master, .slave, .master, .slave, .master, .slave, .slave, .master, .slave, .master]).getD
          (System.new sampleFiles)) := by
    decide
  ⟨rfl, by decide, _, ran, by decide, unixSocketTest_passes rfl (by decide) ran⟩

end Libcamera.Ipc
