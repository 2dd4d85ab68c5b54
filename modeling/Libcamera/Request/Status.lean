import Libcamera.Request.Invariant
import Libcamera.Request.Bindings

/-!
Contract: how `status_` moves along a run.

Owns: what one step can do to `status_`; that a run never brings it back to
`RequestPending` and never leaves `RequestCancelled`; `Quiet` requests, with nothing
pending and `cancelled_` clear, on which only `complete()` changes `status_`; and runs in
which every `prepare()` fails. It also owns the two traces that show what the code does not
prevent: `complete()` on a request never prepared, and a second `prepare()` after
`complete()`, which lets `RequestComplete` become `RequestCancelled`.

Neither `prepare()` nor `complete()` reads `status_`, and `cancelled_` is never cleared:
the status is whatever the last `complete()` computed from `cancelled_`.
-/

set_option autoImplicit false

namespace Libcamera.Request

namespace State

/-- Only `complete()` writes `status_`, and it writes the value `cancelled_` selects. -/
theorem step_status {state next : State} {call : Call} (stepped : state.step call = some next) :
    next.request.status = state.request.status ∨
      (call = .complete ∧ next.request.status =
        if state.request.cancelled then .requestCancelled else .requestComplete) := by
  rcases step_cases stepped with ⟨_, -, rfl⟩ | ⟨-, rfl⟩ | ⟨_, -, -, rfl⟩ | ⟨rfl, -, rfl⟩ |
    ⟨_, _, -, rfl⟩
  · rw [addBuffer_frame]
    simp
  · rw [prepare_frame]
    simp
  all_goals simp

/-- No call removes or replaces a binding of `bufferMap_`. -/
theorem findBuffer_step {state next : State} {call : Call} (stepped : state.step call = some next)
    {stream : Option Stream} {bound : BufferPtr} (found : state.findBuffer stream = some bound) :
    next.findBuffer stream = some bound := by
  rcases step_cases stepped with ⟨buffer, -, rfl⟩ | ⟨-, rfl⟩ | ⟨_, -, -, rfl⟩ | ⟨-, -, rfl⟩ |
    ⟨_, _, -, rfl⟩
  · exact findBuffer_addBuffer_of_found found buffer
  · rwa [prepare_frame]
  all_goals exact found

end State

/-- No run removes or replaces a binding of `bufferMap_`. -/
theorem State.findBuffer_run {state final : State} (calls : List Call)
    (ran : state.run calls = some final) {stream : Option Stream} {bound : BufferPtr}
    (found : state.findBuffer stream = some bound) : final.findBuffer stream = some bound :=
  State.run_preserves (fun state => state.findBuffer stream = some bound)
    (fun found stepped => State.findBuffer_step stepped found) calls found ran

theorem findBuffer_run_of_prepare :
    ∃ state, twoBound.run [.prepare, .completeBuffer ⟨1⟩] = some state ∧
      twoBound.findBuffer (some ⟨1⟩) = some ⟨1⟩ ∧ state.findBuffer (some ⟨1⟩) = some ⟨1⟩ := by
  obtain ⟨state, ran⟩ := Option.isSome_iff_exists.1
    (show (twoBound.run [.prepare, .completeBuffer ⟨1⟩]).isSome by decide)
  have found : twoBound.findBuffer (some ⟨1⟩) = some ⟨1⟩ := by decide
  exact ⟨state, ran, found, State.findBuffer_run _ ran found⟩

/-! ## Quiet requests -/

/-- Nothing is pending and `cancelled_` is clear: a request before its first successful
`prepare()`, or right after a `complete()` that set `RequestComplete`. -/
structure Quiet (state : State) : Prop where
  no_pending : state.request.pending = ∅
  not_cancelled : state.request.cancelled = false

namespace State

/-- Every `prepare()` along the run returns an error. -/
def PreparesFail : State → List Call → Prop
  | _, [] => True
  | state, call :: calls => (call = .prepare → state.prepare.1 ≠ 0) ∧
      ∀ next, state.step call = some next → next.PreparesFail calls

theorem preparesFail_of_not_mem {calls : List Call} (noPrepare : Call.prepare ∉ calls) :
    ∀ state : State, state.PreparesFail calls := by
  induction calls with
  | nil => exact fun _ => trivial
  | cons call calls inductionHypothesis =>
      simp only [List.mem_cons, not_or] at noPrepare
      exact fun _ => ⟨fun isPrepare => absurd isPrepare.symm noPrepare.1,
        fun next _ => inductionHypothesis noPrepare.2 next⟩

/-- A run that ends with `bufferMap_` empty had it empty all along, so every `prepare()`
in it failed. -/
theorem preparesFail_of_run_empty {calls : List Call} :
    ∀ {state final : State}, state.run calls = some final →
      final.request.bufferMap.entries = [] → state.PreparesFail calls := by
  induction calls with
  | nil => exact fun _ _ => trivial
  | cons call calls inductionHypothesis =>
      intro state final ran empty
      obtain ⟨next, stepped, rest⟩ := run_cons_eq_some ran
      have stateEmpty : state.request.bufferMap.entries = [] :=
        BufferMap.entries_eq_nil_iff.2 fun stream => Option.eq_none_iff_forall_not_mem.2
          fun bound found => by
            have kept := findBuffer_run (call :: calls) ran found
            rw [findBuffer, BufferMap.entries_eq_nil_iff.1 empty] at kept
            cases kept
      refine ⟨fun _ => by simp [prepare_eq_zero_iff, stateEmpty], fun other otherStepped => ?_⟩
      rw [stepped, Option.some.injEq] at otherStepped
      exact otherStepped ▸ inductionHypothesis rest empty

end State

namespace Quiet

theorem new (self : RequestPtr) (cookie : UInt64) (buffers : BufferPtr → Buffer) :
    Quiet (State.new self cookie buffers) :=
  ⟨rfl, rfl⟩

/-- A `complete()` that sets `RequestComplete` leaves the request quiet. -/
theorem of_complete {state completed : State} (ran : state.complete = some completed)
    (complete : completed.request.status = .requestComplete) : Quiet completed := by
  by_cases empty : state.request.pending = ∅
  · rw [State.complete_of_no_pending empty, Option.some.injEq] at ran
    subst ran
    refine ⟨empty, ?_⟩
    cases cancelled : state.request.cancelled
    · rfl
    · simp [cancelled] at complete
  · simp [State.complete_of_pending empty] at ran

/-- On a quiet request a step whose `prepare()` fails keeps it quiet, and only
`complete()` changes `status_`, to `RequestComplete`. -/
theorem step {state next : State} {call : Call} (quiet : Quiet state)
    (prepareFails : call = .prepare → state.prepare.1 ≠ 0) (stepped : state.step call = some next) :
    Quiet next ∧ next.request.status =
      if call = .complete then .requestComplete else state.request.status := by
  rcases State.step_cases stepped with ⟨buffer, rfl, rfl⟩ | ⟨rfl, rfl⟩ | ⟨buffer, -, present, rfl⟩ |
    ⟨rfl, -, rfl⟩ | ⟨buffer, status, rfl, rfl⟩
  · rw [State.addBuffer_frame]
    exact ⟨⟨quiet.no_pending, quiet.not_cancelled⟩, by simp⟩
  · have empty := not_not.1 (mt (State.prepare_eq_zero_iff state).2 (prepareFails rfl))
    rw [State.prepare_of_empty empty]
    exact ⟨quiet, by simp⟩
  · simp [quiet.no_pending] at present
  · exact ⟨⟨quiet.no_pending, quiet.not_cancelled⟩, by simp [quiet.not_cancelled]⟩
  · exact ⟨⟨quiet.no_pending, quiet.not_cancelled⟩, by simp⟩

/-- Along a run from a quiet request in which every `prepare()` fails, the request stays
quiet, and `status_` is `RequestComplete` once `complete()` has been called and unchanged
before. -/
theorem run {calls : List Call} :
    ∀ {state final : State}, Quiet state → state.PreparesFail calls →
      state.run calls = some final →
      Quiet final ∧ final.request.status =
        if Call.complete ∈ calls then .requestComplete else state.request.status := by
  induction calls with
  | nil =>
      intro state final quiet _ ran
      cases Option.some.inj ran
      exact ⟨quiet, by simp⟩
  | cons call calls inductionHypothesis =>
      intro state final quiet prepareFails ran
      obtain ⟨next, stepped, rest⟩ := State.run_cons_eq_some ran
      obtain ⟨nextQuiet, nextStatus⟩ := quiet.step prepareFails.1 stepped
      obtain ⟨finalQuiet, finalStatus⟩ :=
        inductionHypothesis nextQuiet (prepareFails.2 next stepped) rest
      refine ⟨finalQuiet, ?_⟩
      rw [finalStatus, nextStatus]
      by_cases isComplete : call = .complete <;> by_cases later : Call.complete ∈ calls <;>
        simp [isComplete, later, eq_comm]

end Quiet

/-! ## Terminal statuses -/

/-- Once `status_` has left `RequestPending` it never comes back, once it is
`RequestCancelled` it stays so, and a `RequestComplete` set by `complete()` stays
`RequestComplete` along every run that does not call `prepare()` again. -/
theorem status_never_reverts {state final : State} (reachable : Reachable anyCall state)
    (calls : List Call) (ran : state.run calls = some final) :
    (state.request.status ≠ .requestPending → final.request.status ≠ .requestPending) ∧
    (state.request.status = .requestCancelled → final.request.status = .requestCancelled) ∧
    ∀ (completed after : State) (later : List Call), state.complete = some completed →
      completed.request.status = .requestComplete → Call.prepare ∉ later →
      completed.run later = some after → after.request.status = .requestComplete := by
  refine ⟨fun settled => ?_, fun cancelled => ?_, fun completed after later ranComplete complete
    noPrepare ranLater => ?_⟩
  · refine State.run_preserves (fun state => state.request.status ≠ .requestPending)
      (fun settled stepped => ?_) calls settled ran
    rcases State.step_status stepped with same | ⟨_, written⟩
    · rwa [same]
    · rw [written]
      split <;> simp
  · refine (State.run_preserves
      (fun state => Consistent state ∧ state.request.status = .requestCancelled)
      (fun ⟨consistent, cancelled⟩ stepped => ⟨consistent.step stepped, ?_⟩) calls
      ⟨reachable.consistent, cancelled⟩ ran).2
    rcases State.step_status stepped with same | ⟨_, written⟩
    · rwa [same]
    · rw [written, consistent.cancelled_of_status cancelled, if_pos rfl]
  · have settled := (Quiet.of_complete ranComplete complete).run
      (State.preparesFail_of_not_mem noPrepare completed) ranLater
    rw [settled.2, complete]
    split <;> rfl

theorem status_never_reverts_of_complete :
    (∃ state completed after : State, Reachable anyCall state ∧
      state.request.status = .requestComplete ∧ state.complete = some completed ∧
      completed.request.status = .requestComplete ∧
      completed.run [.addBuffer ⟨2⟩, .setStatus ⟨0⟩ .bufferCancelled, .complete] = some after ∧
      after.request.status ≠ .requestPending ∧ after.request.status = .requestComplete) ∧
    (∃ state final : State, Reachable anyCall state ∧ state.request.status = .requestCancelled ∧
      state.run [.prepare, .completeBuffer ⟨0⟩, .completeBuffer ⟨1⟩, .complete] = some final ∧
      final.request.status ≠ .requestPending ∧ final.request.status = .requestCancelled) := by
  constructor
  · obtain ⟨state, ran, facts⟩ := Option.map_eq_some'.1
      (show ((State.new ⟨0⟩ 0 sampleBuffers).run [.addBuffer ⟨0⟩, .addBuffer ⟨1⟩, .prepare,
          .completeBuffer ⟨1⟩, .completeBuffer ⟨0⟩, .complete]).map
          (fun state => (state.request.status, state.complete.map fun completed =>
            (completed.request.status, (completed.run
              [.addBuffer ⟨2⟩, .setStatus ⟨0⟩ .bufferCancelled, .complete]).isSome))) =
        some (.requestComplete, some (.requestComplete, true)) by decide)
    obtain ⟨complete, completing⟩ := Prod.mk.inj facts
    obtain ⟨completed, completedEq, completedFacts⟩ := Option.map_eq_some'.1 completing
    obtain ⟨completedStatus, laterRuns⟩ := Prod.mk.inj completedFacts
    obtain ⟨after, ranLater⟩ := Option.isSome_iff_exists.1 laterRuns
    have reachable := (Reachable.new ⟨0⟩ 0 sampleBuffers).run _ ran
    have ranAll : state.run (.complete :: [.addBuffer ⟨2⟩, .setStatus ⟨0⟩ .bufferCancelled,
        .complete]) = some after := by
      rw [State.run_cons, State.step, completedEq, Option.some_bind, ranLater]
    have never := status_never_reverts reachable _ ranAll
    exact ⟨state, completed, after, reachable, complete, completedEq, completedStatus, ranLater,
      never.1 (by rw [complete]; decide),
      never.2.2 completed after _ completedEq completedStatus (by decide) ranLater⟩
  · obtain ⟨state, ran, facts⟩ := Option.map_eq_some'.1
      (show ((State.new ⟨0⟩ 0 sampleBuffers).run [.addBuffer ⟨0⟩, .addBuffer ⟨1⟩, .prepare,
          .setStatus ⟨0⟩ .bufferCancelled, .completeBuffer ⟨0⟩, .completeBuffer ⟨1⟩, .complete]).map
          (fun state => (state.request.status, (state.run
            [.prepare, .completeBuffer ⟨0⟩, .completeBuffer ⟨1⟩, .complete]).isSome)) =
        some (.requestCancelled, true) by decide)
    obtain ⟨cancelled, runsAgain⟩ := Prod.mk.inj facts
    obtain ⟨final, ranAgain⟩ := Option.isSome_iff_exists.1 runsAgain
    have never := status_never_reverts ((Reachable.new ⟨0⟩ 0 sampleBuffers).run _ ran) _ ranAgain
    exact ⟨state, final, (Reachable.new ⟨0⟩ 0 sampleBuffers).run _ ran, cancelled, ranAgain,
      never.1 (by rw [cancelled]; decide), never.2.1 cancelled⟩

/-- `prepare()` does not read `status_`: after `complete()` sets `RequestComplete`, a second
`prepare()` re-arms `pending_`, a buffer completes cancelled, and the next `complete()` sets
`RequestCancelled`, so a status other than `RequestPending` can still change. -/
theorem status_rewritten_after_second_prepare :
    ¬ ∀ (state final : State) (calls : List Call), Reachable anyCall state →
      state.run calls = some final → state.request.status ≠ .requestPending →
      final.request.status = state.request.status := by
  intro never
  obtain ⟨completed, ran, complete⟩ := Option.map_eq_some'.1
    (show ((State.new ⟨0⟩ 0 sampleBuffers).run
        [.addBuffer ⟨0⟩, .prepare, .completeBuffer ⟨0⟩, .complete]).map (·.request.status) =
      some .requestComplete by decide)
  have whole : ((State.new ⟨0⟩ 0 sampleBuffers).run
      ([.addBuffer ⟨0⟩, .prepare, .completeBuffer ⟨0⟩, .complete] ++
        [.prepare, .setStatus ⟨0⟩ .bufferCancelled, .completeBuffer ⟨0⟩, .complete])).map
      (·.request.status) = some .requestCancelled := by decide
  rw [State.run_append, ran, Option.some_bind] at whole
  obtain ⟨cancelled, ranAgain, cancelledStatus⟩ := Option.map_eq_some'.1 whole
  have unchanged := never completed cancelled _ ((Reachable.new _ _ _).run _ ran) ranAgain
    (by rw [complete]; decide)
  rw [complete, cancelledStatus] at unchanged
  cases unchanged

/-! ## Before the first successful `prepare()` -/

/-- Before any `prepare()` succeeds, `status_` is `RequestPending` until `complete()` is
called and `RequestComplete` from then on, and `complete()` passes its `ASSERT` and sets
`RequestComplete`, since nothing is pending; in particular a request whose `bufferMap_` is
empty never reaches `RequestCancelled`, and reaches `RequestComplete` exactly when
`complete()` is called. -/
theorem status_before_first_prepare (self : RequestPtr) (cookie : UInt64)
    (buffers : BufferPtr → Buffer) (calls : List Call) {state : State}
    (ran : (State.new self cookie buffers).run calls = some state) :
    ((State.new self cookie buffers).PreparesFail calls →
      state.request.status =
        (if Call.complete ∈ calls then .requestComplete else .requestPending) ∧
      ∃ completed, state.complete = some completed ∧
        completed.request.status = .requestComplete) ∧
    (state.request.bufferMap.entries = [] →
      state.request.status ≠ .requestCancelled ∧
        (state.request.status = .requestComplete ↔ Call.complete ∈ calls)) := by
  have unprepared : (State.new self cookie buffers).PreparesFail calls →
      Quiet state ∧ state.request.status =
        if Call.complete ∈ calls then .requestComplete else .requestPending :=
    fun preparesFail => (Quiet.new self cookie buffers).run preparesFail ran
  refine ⟨fun preparesFail => ⟨(unprepared preparesFail).2, ?_⟩, fun empty => ?_⟩
  · have quiet := (unprepared preparesFail).1
    exact ⟨_, State.complete_of_no_pending quiet.no_pending, by simp [quiet.not_cancelled]⟩
  · rw [(unprepared (State.preparesFail_of_run_empty ran empty)).2]
    split <;> simp [*]

theorem status_before_first_prepare_of_complete :
    (∃ state completed : State, (State.new ⟨0⟩ 0 sampleBuffers).run
        [.addBuffer ⟨0⟩, .complete, .addBuffer ⟨1⟩] = some state ∧
      state.request.status = .requestComplete ∧ state.complete = some completed ∧
      completed.request.status = .requestComplete) ∧
    ∃ state : State, (State.new ⟨0⟩ 0 sampleBuffers).run [.prepare, .complete] = some state ∧
      state.request.bufferMap.entries = [] ∧ state.request.status = .requestComplete := by
  constructor
  · obtain ⟨state, ran⟩ := Option.isSome_iff_exists.1
      (show ((State.new ⟨0⟩ 0 sampleBuffers).run
        [.addBuffer ⟨0⟩, .complete, .addBuffer ⟨1⟩]).isSome by decide)
    obtain ⟨status, completed, completedEq, completedStatus⟩ :=
      (status_before_first_prepare ⟨0⟩ 0 sampleBuffers _ ran).1
        (State.preparesFail_of_not_mem (by decide) _)
    exact ⟨state, completed, ran, status.trans (if_pos (by decide)), completedEq, completedStatus⟩
  · obtain ⟨state, ran, empty⟩ := Option.map_eq_some'.1
      (show ((State.new ⟨0⟩ 0 sampleBuffers).run [.prepare, .complete]).map
        (·.request.bufferMap.entries) = some [] by decide)
    exact ⟨state, ran, empty,
      ((status_before_first_prepare ⟨0⟩ 0 sampleBuffers _ ran).2 empty).2.2 (by decide)⟩

/-- `complete()` does not require a prior `prepare()`: on a request never prepared it finds no
pending buffer, passes its `ASSERT`, and sets `RequestComplete`, so `status_` leaves
`RequestPending` before any `prepare()` succeeds. -/
theorem complete_without_prepare :
    ¬ ∀ (self : RequestPtr) (cookie : UInt64) (buffers : BufferPtr → Buffer) (calls : List Call)
      (state : State), (State.new self cookie buffers).run calls = some state →
      (State.new self cookie buffers).PreparesFail calls →
      state.request.status = .requestPending := by
  intro pending
  obtain ⟨completed, ran, complete⟩ := Option.map_eq_some'.1
    (show ((State.new ⟨0⟩ 0 sampleBuffers).run [.complete]).map (·.request.status) =
      some .requestComplete by decide)
  have stillPending := pending ⟨0⟩ 0 sampleBuffers [.complete] completed ran
    (State.preparesFail_of_not_mem (by decide) _)
  rw [complete] at stillPending
  cases stillPending

end Libcamera.Request
