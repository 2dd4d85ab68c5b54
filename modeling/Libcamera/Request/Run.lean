import Libcamera.Request.Methods

/-!
Contract: runs of a request, one call after another, from the moment it is constructed.

Owns: the calls a run is made of, one step of a run, whole runs, and the states that runs
reach under a discipline that the callers keep.

A step drops the value the call returns; the theorems that need a return value state it
about the method itself. A run stops with `none` at the first failed `ASSERT`.
-/

set_option autoImplicit false

namespace Libcamera.Request

/-- The calls a run is made of: the methods of `Request` that change it, and the device
storing the status of a buffer it has completed. -/
inductive Call where
  | addBuffer (buffer : BufferPtr)
  | prepare
  | completeBuffer (buffer : BufferPtr)
  | complete
  | setStatus (buffer : BufferPtr) (status : Buffer.Status)
deriving DecidableEq, Repr

namespace State

/-- One call; `none` when an `ASSERT` fails. -/
def step (state : State) : Call → Option State
  | .addBuffer buffer => some (state.addBuffer buffer).2
  | .prepare => some state.prepare.2
  | .completeBuffer buffer => (state.completeBuffer buffer).map Prod.snd
  | .complete => state.complete
  | .setStatus buffer status => some (state.setStatus buffer status)

/-- The calls in order; `none` when an `ASSERT` fails on the way. -/
def run (state : State) : List Call → Option State
  | [] => some state
  | call :: calls => (state.step call).bind (·.run calls)

/-- What one step can do: each call, with the guard its `ASSERT` imposes. -/
theorem step_cases {state next : State} {call : Call} (stepped : state.step call = some next) :
    (∃ buffer, call = .addBuffer buffer ∧ next = (state.addBuffer buffer).2) ∨
    (call = .prepare ∧ next = state.prepare.2) ∨
    (∃ buffer, call = .completeBuffer buffer ∧ buffer ∈ state.request.pending ∧
      next = ⟨{ state.request with
          pending := state.request.pending.erase buffer
          cancelled := state.request.cancelled ||
            decide ((state.buffers buffer).status = .bufferCancelled) },
        (state.setRequest buffer none).buffers⟩) ∨
    (call = .complete ∧ state.request.pending = ∅ ∧
      next = { state with request := { state.request with
        status := if state.request.cancelled then .requestCancelled else .requestComplete } }) ∨
    (∃ buffer status, call = .setStatus buffer status ∧ next = state.setStatus buffer status) := by
  cases call with
  | addBuffer buffer => exact .inl ⟨buffer, rfl, (Option.some.inj stepped).symm⟩
  | prepare => exact .inr (.inl ⟨rfl, (Option.some.inj stepped).symm⟩)
  | completeBuffer buffer =>
      by_cases present : buffer ∈ state.request.pending
      · simp only [step, completeBuffer_of_mem present, Option.map_some', Option.some.injEq]
          at stepped
        exact .inr (.inr (.inl ⟨buffer, rfl, present, stepped.symm⟩))
      · simp [step, completeBuffer_of_not_mem present] at stepped
  | complete =>
      by_cases empty : state.request.pending = ∅
      · rw [step, complete_of_no_pending empty, Option.some.injEq] at stepped
        exact .inr (.inr (.inr (.inl ⟨rfl, empty, stepped.symm⟩)))
      · simp [step, complete_of_pending empty] at stepped
  | setStatus buffer status =>
      exact .inr (.inr (.inr (.inr ⟨buffer, status, rfl, (Option.some.inj stepped).symm⟩)))

@[simp] theorem run_nil (state : State) : state.run [] = some state := rfl

theorem run_cons (state : State) (call : Call) (calls : List Call) :
    state.run (call :: calls) = (state.step call).bind (·.run calls) := rfl

/-- A run that reaches `final` took a first step, and ran the rest from there. -/
theorem run_cons_eq_some {state final : State} {call : Call} {calls : List Call}
    (ran : state.run (call :: calls) = some final) :
    ∃ next, state.step call = some next ∧ next.run calls = some final := by
  rw [run_cons] at ran
  cases stepped : state.step call with
  | none => simp [stepped] at ran
  | some next => exact ⟨next, rfl, by simpa [stepped] using ran⟩

theorem run_append (state : State) (first second : List Call) :
    state.run (first ++ second) = (state.run first).bind (·.run second) := by
  induction first generalizing state with
  | nil => rfl
  | cons call calls inductionHypothesis =>
      simp only [List.cons_append, run_cons, Option.bind_assoc, inductionHypothesis]

/-- A property that every step keeps holds after every run. -/
theorem run_preserves (keeps : State → Prop)
    (preserved : ∀ {state next : State} {call : Call}, keeps state →
      state.step call = some next → keeps next) :
    ∀ {state final : State} (calls : List Call), keeps state →
      state.run calls = some final → keeps final
  | state, final, [], holds, ran => by
      cases Option.some.inj ran
      exact holds
  | state, final, call :: calls, holds, ran => by
      obtain ⟨next, stepped, rest⟩ := run_cons_eq_some ran
      exact run_preserves keeps preserved calls (preserved holds stepped) rest

end State

/-- The states reached from a request just constructed, by calls in which no `ASSERT`
fails and each of which meets `discipline` in the state it is made in. -/
inductive Reachable (discipline : State → Call → Prop) : State → Prop
  | new (self : RequestPtr) (cookie : UInt64) (buffers : BufferPtr → Buffer) :
      Reachable discipline (State.new self cookie buffers)
  | step {state next : State} {call : Call} :
      Reachable discipline state → discipline state call → state.step call = some next →
      Reachable discipline next

/-- The discipline that allows every call. -/
def anyCall : State → Call → Prop := fun _ _ => True

namespace Reachable

variable {discipline : State → Call → Prop}

/-- Every state a run of allowed calls reaches from a reachable state is reachable. -/
theorem run {state final : State} (reachable : Reachable anyCall state) (calls : List Call)
    (ran : state.run calls = some final) : Reachable anyCall final :=
  State.run_preserves (Reachable anyCall) (fun reached stepped => .step reached trivial stepped)
    calls reachable ran

/-- What holds of a request just constructed and is kept by every allowed step holds in
every reachable state. -/
theorem induction_on {motive : State → Prop} {state : State}
    (reachable : Reachable discipline state)
    (initial : ∀ self cookie buffers, motive (State.new self cookie buffers))
    (preserved : ∀ {state next : State} {call : Call}, motive state → discipline state call →
      state.step call = some next → motive next) :
    motive state := by
  induction reachable with
  | new self cookie buffers => exact initial self cookie buffers
  | step _ allowed stepped inductionHypothesis => exact preserved inductionHypothesis allowed stepped

end Reachable

end Libcamera.Request
