import Libcamera.LogProcess.LogProcessTest

/-!
Contract: what every run of `test/log/log_process.cpp` keeps, whatever the order in which
the child runs, its `finished` signal is delivered, and the parent's timer expires.

Owns: that the child reads back the numbers the parent passes it, and so logs to the file
the parent reads; `LogProcessSystem.Invariant`, which says for each place of the two
processes what the test's members and `/tmp` hold; that no step that can happen has
undefined behaviour where the log file is new and its line fits the parent's buffer; what
`run()` returns; that a child the timer overtakes leaves its log file in `/tmp`; and that
every run ends within four steps.

Does not own: the code (`LogProcessTest`).
-/

set_option autoImplicit false

namespace Libcamera.LogProcess

open LogProcessTest

/-! ## The arguments and the log file -/

theorem signed_fits (value : UInt32) : -2 ^ 31 ≤ signed value ∧ signed value < 2 ^ 31 :=
  (isInt_iff _).1 (isInt_signed value)

/-- The child reads back the code and the number that the parent passes it, and runs
`LogProcessTestChild::run` on them. -/
theorem main_of_start (header : List UInt8) (dir : Directory) (num : Int)
    (fits : -2 ^ 31 ≤ num ∧ num < 2 ^ 31) :
    LogProcessTestChild.main header dir (to_string 42) (to_string num) =
      (some (LogProcessTestChild.run header dir 42 num).1,
        (LogProcessTestChild.run header dir 42 num).2) := by
  simp [LogProcessTestChild.main, stoi_to_string fits, stoi_to_string (show -2 ^ 31 ≤ (42 : Int) ∧
    (42 : Int) < 2 ^ 31 by decide)]

/-- The line the child logs, after the header. -/
def logText (header : List UInt8) : List UInt8 :=
  header ++ message ++ ['\n'.toUInt8]

/-- Where `/tmp` takes new files and holds none at the child's path, the child creates its
log file with one line, and returns `status`. -/
theorem run_of_writable (header : List UInt8) (status : Int) {dir : Directory} {num : Int}
    (writable : dir.writable = true) (fresh : dir.contents (logPathFor num) = none) :
    (LogProcessTestChild.run header dir status num).1 = status ∧
      (LogProcessTestChild.run header dir status num).2.contents (logPathFor num) =
        some (logText header) ∧
      (LogProcessTestChild.run header dir status num).2.writable = true := by
  simp [LogProcessTestChild.run, logSetFile, fresh, writable, logLine, logText]

/-- Where `/tmp` takes no new file and holds none at the child's path, the child returns
`TestSkip` and changes nothing. -/
theorem run_of_readOnly {header : List UInt8} {dir : Directory} {status num : Int}
    (readOnly : dir.writable = false) (fresh : dir.contents (logPathFor num) = none) :
    LogProcessTestChild.run header dir status num = (TestSkip, dir) := by
  simp [LogProcessTestChild.run, logSetFile, fresh, readOnly]

/-- A line that fits the buffer with room for a NUL, and holds none, is read back whole, and
`find` finds the message in it. -/
theorem afterTimeout_of_logText {header : List UInt8} (short : header.length < 179)
    (noNul : NUL ∉ header) {test : LogProcessTest} {dir : Directory}
    (normal : test.exitStatus = .normalExit) (code : test.exitCode = 42)
    (found : dir.contents test.logPath = some (logText header)) :
    test.afterTimeout 42 dir = some TestPass := by
  have length : (logText header).length = header.length + 21 := by
    simp [logText, message]
  have buffer : readBuffer (logText header) =
      logText header ++ NUL :: List.replicate (178 - header.length) NUL := by
    rw [readBuffer, List.take_of_length_le (by omega), length,
      show 200 - (header.length + 21) = 178 - header.length + 1 by omega, List.replicate_succ]
  have textNoNul : NUL ∉ logText header := by
    simp only [logText, List.mem_append, not_or]
    exact ⟨⟨noNul, by decide⟩, by decide⟩
  have foundMessage : (find (logText header) message).isSome :=
    (find_isSome _ _).2 ⟨header, ['\n'.toUInt8], rfl⟩
  simp only [afterTimeout, normal, code, found, buffer, cString_of_nul textNoNul, ne_eq,
    not_true_eq_false, if_false, Option.map_some']
  rw [if_neg (by decide), if_neg (Option.isSome_iff_ne_none.1 foundMessage)]

/-- `/tmp` with no file, taking new ones. -/
def sampleTmp : Directory :=
  ⟨fun _ => none, true⟩

/-! ## What every interleaving keeps -/

namespace LogProcessSystem

section Invariant

variable (random : UInt32) (header : List UInt8) (dir : Directory)

/-- What the child does with the arguments that the parent gives it, on `/tmp` as it finds
it. -/
def childRun (found : Directory) : Int × Directory :=
  LogProcessTestChild.run header found 42 (signed random)

/-- What each place of the two processes has done, in a test that started with `random`,
`header` and `dir`: the child's arguments are those the parent gave it; once the child has
run, `/tmp` and what `finished` carries are what its `run` made of `/tmp` as it found it,
before or after `cleanup()`; and once `run()` has returned, it returned what its code makes
of the members it then held. -/
def Invariant (system : LogProcessSystem) : Prop :=
  system.header = header ∧
  match system.parent, system.child with
  | .starting, .notStarted => system.test = init random ∧ system.dir = dir
  | .waiting exitCode, .running argv1 argv2 =>
      exitCode = 42 ∧ argv1 = to_string 42 ∧ argv2 = to_string (signed random) ∧
        system.test = init random ∧ system.dir = dir
  | .waiting exitCode, .exited exitStatus code =>
      exitCode = 42 ∧ system.test = init random ∧ exitStatus = .normalExit ∧
        code = (childRun random header dir).1 % 256 ∧ system.dir = (childRun random header dir).2
  | .waiting exitCode, .reaped =>
      exitCode = 42 ∧
        system.test = (init random).procFinished .normalExit ((childRun random header dir).1 % 256) ∧
        system.dir = (childRun random header dir).2
  | .finished result, .notStarted =>
      result = TestFail ∧ system.test = init random ∧ system.dir = (init random).cleanup dir
  | .finished result, .running argv1 argv2 =>
      result = TestFail ∧ argv1 = to_string 42 ∧ argv2 = to_string (signed random) ∧
        system.test = init random ∧ system.dir = (init random).cleanup dir
  | .finished result, .exited exitStatus code =>
      result = TestFail ∧ system.test = init random ∧ exitStatus = .normalExit ∧
        (code = (childRun random header dir).1 % 256 ∧
            system.dir = (init random).cleanup (childRun random header dir).2 ∨
          code = (childRun random header ((init random).cleanup dir)).1 % 256 ∧
            system.dir = (childRun random header ((init random).cleanup dir)).2)
  | .finished result, .reaped =>
      system.test = (init random).procFinished .normalExit ((childRun random header dir).1 % 256) ∧
        system.test.afterTimeout 42 (childRun random header dir).2 = some result ∧
        system.dir = (init random).cleanup (childRun random header dir).2
  | _, _ => False

variable {random header dir}

/-- Before `finished` is delivered, `run()` finds `exitStatus_` as the value initialisation
left it, and fails. -/
theorem afterTimeout_init (exitCode : Int) (found : Directory) :
    (init random).afterTimeout exitCode found = some TestFail :=
  rfl

theorem main_childRun (found : Directory) :
    LogProcessTestChild.main header found (to_string 42) (to_string (signed random)) =
      (some (childRun random header found).1, (childRun random header found).2) :=
  main_of_start header found _ (signed_fits random)

/-- No step of either process, nor the timer, leaves the invariant. -/
theorem Invariant.step {system next : LogProcessSystem} {event : LogProcessEvent}
    (invariant : system.Invariant random header dir) (stepped : system.step event = some next) :
    next.Invariant random header dir := by
  obtain ⟨parent, test, child, current, header'⟩ := system
  obtain ⟨rfl, invariant⟩ := invariant
  cases parent <;> cases child <;> dsimp only at invariant
  case starting.notStarted =>
    obtain ⟨rfl, rfl⟩ := invariant
    cases event <;> simp only [LogProcessSystem.step, reduceCtorEq, Option.some.injEq] at stepped
    subst stepped
    split_ifs with failed
    · simp [Invariant, finish, LogProcessTest.start, failed]
    · simp [Invariant, LogProcessTest.start, failed, init]
  case waiting.running =>
    obtain ⟨rfl, rfl, rfl, rfl, rfl⟩ := invariant
    cases event <;> simp [LogProcessSystem.step, main_childRun, Process.report, afterTimeout_init] at stepped <;>
      subst stepped <;> simp [Invariant, finish, cleanup]
  case waiting.exited =>
    obtain ⟨rfl, rfl, rfl, rfl, rfl⟩ := invariant
    cases event <;> simp [LogProcessSystem.step, afterTimeout_init] at stepped <;>
      subst stepped <;> simp [Invariant, finish, cleanup, procFinished]
  case waiting.reaped =>
    obtain ⟨rfl, rfl, rfl⟩ := invariant
    cases event <;> simp [LogProcessSystem.step] at stepped
    obtain ⟨result, resulted, rfl⟩ := stepped
    simp [Invariant, finish, cleanup, resulted]
  case finished.running =>
    obtain ⟨rfl, rfl, rfl, rfl, rfl⟩ := invariant
    cases event <;> simp [LogProcessSystem.step, main_childRun, Process.report] at stepped
    subst stepped
    simp [Invariant]
  case finished.notStarted | finished.exited | finished.reaped =>
    cases event <;> simp [LogProcessSystem.step] at stepped

/-- Every state an interleaving reaches keeps the invariant. -/
theorem Reachable.invariant {system : LogProcessSystem}
    (reachable : Reachable random header dir system) : system.Invariant random header dir := by
  induction reachable with
  | new => exact ⟨rfl, rfl, rfl⟩
  | step _ _ stepped inductionHypothesis => exact inductionHypothesis.step stepped

theorem Reachable.run {system final : LogProcessSystem} {events : List LogProcessEvent}
    (reachable : Reachable random header dir system) (ran : system.run events = some final) :
    Reachable random header dir final := by
  induction events generalizing system with
  | nil => exact Option.some.inj ran ▸ reachable
  | cons event rest inductionHypothesis =>
      obtain ⟨next, stepped, ranRest⟩ := Option.bind_eq_some.1 ran
      exact inductionHypothesis (.step event reachable stepped) ranRest

section Verdict

variable (fresh : dir.contents (logPathFor (signed random)) = none) (short : header.length < 179)
  (noNul : NUL ∉ header)
include fresh short noNul

/-- Once the child's `finished` signal has been delivered, `run()` returns `TestPass` where
`/tmp` took the log file, and `TestSkip` where it did not. -/
theorem afterTimeout_reaped :
    ((init random).procFinished .normalExit ((childRun random header dir).1 % 256)).afterTimeout 42
        (childRun random header dir).2 =
      some (if dir.writable then TestPass else TestSkip) := by
  cases writable : dir.writable
  · rw [childRun, run_of_readOnly writable fresh]
    rfl
  · obtain ⟨returned, logged, -⟩ := run_of_writable header 42 writable fresh
    rw [if_pos rfl]
    exact afterTimeout_of_logText short noNul rfl (by rw [childRun, returned]; rfl) logged

/-- Under the invariant, where `/tmp` holds no file of the test's name and the log's header
fits the parent's buffer, no step that can happen has undefined behaviour. -/
theorem Invariant.step_isSome {system : LogProcessSystem} (invariant : system.Invariant random header dir)
    {event : LogProcessEvent} (enabled : system.enabled event = true) : (system.step event).isSome := by
  obtain ⟨parent, test, child, current, header'⟩ := system
  obtain ⟨rfl, invariant⟩ := invariant
  cases event <;> cases parent <;> cases child <;> dsimp only at invariant <;>
    simp [LogProcessSystem.enabled, LogProcessSystem.step] at enabled ⊢
  case timeout.waiting.running =>
    obtain ⟨rfl, -, -, rfl, -⟩ := invariant
    rw [afterTimeout_init]
    rfl
  case timeout.waiting.exited =>
    obtain ⟨rfl, rfl, -⟩ := invariant
    rw [afterTimeout_init]
    rfl
  case timeout.waiting.reaped =>
    obtain ⟨rfl, rfl, rfl⟩ := invariant
    rw [afterTimeout_reaped fresh short noNul]
    rfl

/-- Under the invariant, where `/tmp` holds no file of the test's name and the log's header
fits the parent's buffer, `run()` returns `TestPass` where the child's `finished` signal was
delivered before the timer expired and `/tmp` took the log file, `TestSkip` where it was
delivered but `/tmp` took no file, and `TestFail` otherwise. -/
theorem Invariant.result {system : LogProcessSystem} (invariant : system.Invariant random header dir)
    {result : Int} (finished : system.parent = .finished result) :
    result = if system.child = .reaped then (if dir.writable then TestPass else TestSkip) else TestFail := by
  obtain ⟨parent, test, child, current, header'⟩ := system
  obtain ⟨rfl, invariant⟩ := invariant
  cases finished
  cases child <;> dsimp only at invariant
  case reaped =>
    obtain ⟨rfl, resulted, -⟩ := invariant
    rw [afterTimeout_reaped fresh short noNul, Option.some.injEq] at resulted
    exact resulted.symm
  all_goals
    obtain ⟨rfl, -⟩ := invariant
    rfl

end Verdict

/-- A running child reads back through `stoi` the code and the number that the parent
printed with `to_string`, and builds from the number the path that the parent reads. -/
theorem Invariant.arguments {system : LogProcessSystem} (invariant : system.Invariant random header dir)
    {argv1 argv2 : List Char} (running : system.child = .running argv1 argv2) :
    stoi argv1 = some 42 ∧ stoi argv2 = some system.test.num ∧
      system.test.logPath = logPathFor system.test.num := by
  obtain ⟨parent, test, child, current, header'⟩ := system
  obtain ⟨rfl, invariant⟩ := invariant
  cases running
  cases parent <;> dsimp only at invariant
  all_goals
    obtain ⟨-, rfl, rfl, rfl, -⟩ := invariant
    exact ⟨stoi_to_string (by decide), stoi_to_string (signed_fits random), rfl⟩

/-- A child that the timer overtakes runs after `cleanup()`: where `/tmp` takes new files it
creates its log file there, and no step can happen after it that would remove it. -/
theorem Invariant.logFile_left {system : LogProcessSystem}
    (invariant : system.Invariant random header dir) (writable : dir.writable = true)
    {result : Int} {argv1 argv2 : List Char} (finished : system.parent = .finished result)
    (running : system.child = .running argv1 argv2) :
    ∃ next, system.step .child = some next ∧
      next.dir.contents system.test.logPath = some (logText header) ∧
      ∀ event, next.enabled event = false := by
  obtain ⟨parent, test, child, current, header'⟩ := system
  obtain ⟨rfl, invariant⟩ := invariant
  cases finished
  cases running
  obtain ⟨rfl, rfl, rfl, rfl, rfl⟩ := invariant
  have cleaned : ((init random).cleanup dir).contents (logPathFor (signed random)) = none :=
    Directory.unlink_contents_self writable _
  obtain ⟨-, logged, -⟩ := run_of_writable header' 42
    (by rw [cleanup, Directory.unlink_writable, writable]) cleaned
  refine ⟨_, rfl, ?_, fun event => by cases event <;> rfl⟩
  rw [main_childRun]
  exact logged

end Invariant

/-! ## Every run ends -/

/-- A bound on the steps left: four for the parent before it starts the child, and one
while it waits; two for a child that has still to run, and one for a child whose exit has
still to be delivered. -/
def measure (system : LogProcessSystem) : Nat :=
  (match system.parent with
    | .starting => 4
    | .waiting _ => 1
    | .finished _ => 0) +
  (match system.child with
    | .notStarted | .reaped => 0
    | .running _ _ => 2
    | .exited _ _ => 1)

theorem step_measure {system next : LogProcessSystem} {event : LogProcessEvent}
    (stepped : system.step event = some next) : next.measure < system.measure := by
  obtain ⟨parent, test, child, current, header⟩ := system
  cases event with
  | start ret =>
      cases parent <;> simp only [LogProcessSystem.step, reduceCtorEq, Option.some.injEq] at stepped
      subst stepped
      split_ifs with failed
      · simp [measure, finish, LogProcessTest.start, failed]
      · simp [measure, LogProcessTest.start, failed]
        omega
  | child =>
      cases child <;> simp only [LogProcessSystem.step, reduceCtorEq, Option.some.injEq] at stepped
      subst stepped
      cases parent <;> simp [measure]
  | finished =>
      cases parent <;> cases child <;>
        simp only [LogProcessSystem.step, reduceCtorEq, Option.some.injEq] at stepped
      subst stepped
      simp [measure]
  | timeout =>
      cases parent <;> simp only [LogProcessSystem.step, reduceCtorEq] at stepped
      obtain ⟨result, -, rfl⟩ := Option.map_eq_some'.1 stepped
      cases child <;> simp [measure, finish]

/-- A run is no longer than the bound it starts from. -/
theorem run_length_le {system final : LogProcessSystem} {events : List LogProcessEvent}
    (ran : system.run events = some final) : events.length ≤ system.measure := by
  induction events generalizing system with
  | nil => exact Nat.zero_le _
  | cons event rest inductionHypothesis =>
      obtain ⟨next, stepped, ranRest⟩ := Option.bind_eq_some.1 ran
      have shorter := step_measure stepped
      have restBound := inductionHypothesis ranRest
      rw [List.length_cons]
      omega

end LogProcessSystem

/-! ## The test -/

/-- A header as the log writes it before the child's message. -/
def sampleHeader : List UInt8 :=
  "[0:00:00.050000000]  WARN LogProcessTest log_process.cpp:48 ".toList.map Char.toUInt8

/-- The test of logging from a child process, under every interleaving of its two processes
and its timer, on a machine whose `/tmp` holds no file of the test's name and whose log
header is shorter than 179 bytes and holds no NUL. No step that can happen has undefined
behaviour. A running child reads back through `stoi` the code and the number that the
parent printed, and so logs to the file the parent reads. Once `run()` has returned, it
returned `TestPass` where the child's exit was delivered before the timer expired and
`/tmp` took the log file, `TestSkip` where the exit was delivered and `/tmp` took no file,
and `TestFail` in every other case: the test fails whenever its timer overtakes the child.
Every run has at most four steps. -/
theorem logProcessTest_result {random : UInt32} {header : List UInt8} {dir : Directory}
    (fresh : dir.contents (logPathFor (signed random)) = none) (short : header.length < 179)
    (noNul : NUL ∉ header) {events : List LogProcessEvent} {final : LogProcessSystem}
    (ran : (LogProcessSystem.new random header dir).run events = some final) :
    (∀ event, final.enabled event = true → (final.step event).isSome) ∧
    (∀ argv1 argv2, final.child = .running argv1 argv2 →
      stoi argv1 = some 42 ∧ stoi argv2 = some final.test.num ∧
        final.test.logPath = logPathFor final.test.num) ∧
    (∀ result, final.parent = .finished result →
      result = if final.child = .reaped then (if dir.writable then TestPass else TestSkip)
        else TestFail) ∧
    events.length ≤ 4 := by
  have invariant := (LogProcessSystem.Reachable.new.run ran).invariant
  exact ⟨fun _ enabled => invariant.step_isSome fresh short noNul enabled,
    fun _ _ running => invariant.arguments running,
    fun _ finished => invariant.result fresh short noNul finished,
    LogProcessSystem.run_length_le ran⟩

theorem logProcessTest_result_in_order :
    sampleTmp.contents (logPathFor (signed 7)) = none ∧ sampleHeader.length < 179 ∧
    NUL ∉ sampleHeader ∧
    (∃ final, (LogProcessSystem.new 7 sampleHeader sampleTmp).run
        [.start 0, .child, .finished, .timeout] = some final ∧ final.parent = .finished TestPass ∧
      ((∀ event, final.enabled event = true → (final.step event).isSome) ∧
        (∀ argv1 argv2, final.child = .running argv1 argv2 →
          stoi argv1 = some 42 ∧ stoi argv2 = some final.test.num ∧
            final.test.logPath = logPathFor final.test.num) ∧
        (∀ result, final.parent = .finished result →
          result = if final.child = .reaped then (if sampleTmp.writable then TestPass else TestSkip)
            else TestFail) ∧
        [LogProcessEvent.start 0, .child, .finished, .timeout].length ≤ 4)) ∧
    ∃ started, (LogProcessSystem.new 7 sampleHeader sampleTmp).run [.start 0] = some started ∧
      started.child = .running (to_string 42) (to_string (signed 7)) ∧
      stoi (to_string 42) = some 42 ∧ stoi (to_string (signed 7)) = some started.test.num ∧
        started.test.logPath = logPathFor started.test.num := by
  have passed : ((LogProcessSystem.new 7 sampleHeader sampleTmp).run
      [.start 0, .child, .finished, .timeout]).map LogProcessSystem.parent =
      some (.finished TestPass) := by
    decide
  obtain ⟨final, ran, finished⟩ := Option.map_eq_some'.1 passed
  have started : ((LogProcessSystem.new 7 sampleHeader sampleTmp).run [.start 0]).map
      LogProcessSystem.child = some (.running (to_string 42) (to_string (signed 7))) := by
    decide
  obtain ⟨started, startedRan, running⟩ := Option.map_eq_some'.1 started
  exact ⟨rfl, by decide, by decide, ⟨final, ran, finished,
    logProcessTest_result rfl (by decide) (by decide) ran⟩, started, startedRan, running,
    (logProcessTest_result rfl (by decide) (by decide) startedRan).2.1 _ _ running⟩

/-- When the parent's timer expires before the child has run, `cleanup()` runs before the
child creates its log file: where `/tmp` takes new files, the child's step leaves the file
there, and no step can happen after it. -/
theorem logFile_left_behind {random : UInt32} {header : List UInt8} {dir : Directory}
    (writable : dir.writable = true) {events : List LogProcessEvent} {final : LogProcessSystem}
    (ran : (LogProcessSystem.new random header dir).run events = some final) {result : Int}
    {argv1 argv2 : List Char} (finished : final.parent = .finished result)
    (running : final.child = .running argv1 argv2) :
    ∃ next, final.step .child = some next ∧
      next.dir.contents final.test.logPath = some (logText header) ∧
      ∀ event, next.enabled event = false :=
  (LogProcessSystem.Reachable.new.run ran).invariant.logFile_left writable finished running

theorem logFile_left_behind_of_timeout_first :
    sampleTmp.writable = true ∧ ∃ final, (LogProcessSystem.new 7 sampleHeader sampleTmp).run
        [.start 0, .timeout] = some final ∧ final.parent = .finished TestFail ∧
      final.child = .running (to_string 42) (to_string (signed 7)) ∧
      ∃ next, final.step .child = some next ∧
        next.dir.contents final.test.logPath = some (logText sampleHeader) ∧
        ∀ event, next.enabled event = false := by
  have overtaken : ((LogProcessSystem.new 7 sampleHeader sampleTmp).run [.start 0, .timeout]).map
      (fun system => (system.parent, system.child)) =
      some (.finished TestFail, .running (to_string 42) (to_string (signed 7))) := by
    decide
  obtain ⟨final, ran, phases⟩ := Option.map_eq_some'.1 overtaken
  obtain ⟨finished, running⟩ := Prod.mk.inj phases
  exact ⟨rfl, final, ran, finished, running, logFile_left_behind rfl ran finished running⟩

end Libcamera.LogProcess
