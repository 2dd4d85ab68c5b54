import Libcamera.Request.Basic
import Libcamera.Errno

/-!
Contract: the methods of `Request` in `src/libcamera/request.cpp`, as the code computes
them, each with the one lemma that later proofs cite instead of unfolding it.

Owns: `addBuffer`, `findBuffer`, `hasPendingBuffers`, `prepare`, `complete` and
`completeBuffer`, and the error codes they return.

A method that holds an `ASSERT` returns an `Option`: `none` is the failed assertion, which
logs a fatal message and aborts. Return codes are `Int`s, as in the code.
-/

set_option autoImplicit false

namespace Libcamera.Request

namespace State

/-! ## Binding buffers to streams -/

/-- `bufferMap_[stream] = buffer`. -/
def bindBuffer (state : State) (stream : Option Stream) (buffer : BufferPtr) : State :=
  { state with
    request := { state.request with bufferMap := state.request.bufferMap.insert stream buffer } }

/-- `Request::addBuffer(buffer)`: the return code and the state after the call. -/
def addBuffer (state : State) (buffer : BufferPtr) : Int × State :=
  let stream := (state.buffers buffer).stream
  if stream = none then
    (-EINVAL, state)
  else if stream ∈ state.request.bufferMap then
    (-EEXIST, state)
  else
    (0, state.bindBuffer stream buffer)

/-- `Request::findBuffer(stream)`, with `none` for `nullptr`. -/
def findBuffer (state : State) (stream : Option Stream) : Option BufferPtr :=
  state.request.bufferMap.lookup stream

@[simp] theorem bindBuffer_buffers (state : State) (stream : Option Stream) (buffer : BufferPtr) :
    (state.bindBuffer stream buffer).buffers = state.buffers := rfl

/-- `addBuffer` either fails on a null stream, fails on a stream already bound, or binds
the buffer to its stream; a failed call changes nothing. -/
theorem addBuffer_cases (state : State) (buffer : BufferPtr) :
    ((state.buffers buffer).stream = none ∧ state.addBuffer buffer = (-EINVAL, state)) ∨
    ((state.buffers buffer).stream ≠ none ∧ (state.buffers buffer).stream ∈ state.request.bufferMap ∧
      state.addBuffer buffer = (-EEXIST, state)) ∨
    ((state.buffers buffer).stream ≠ none ∧ (state.buffers buffer).stream ∉ state.request.bufferMap ∧
      state.addBuffer buffer = (0, state.bindBuffer (state.buffers buffer).stream buffer)) := by
  unfold addBuffer
  by_cases null : (state.buffers buffer).stream = none
  · simp [null]
  · by_cases bound : (state.buffers buffer).stream ∈ state.request.bufferMap <;> simp [null, bound]

theorem addBuffer_eq_zero_iff (state : State) (buffer : BufferPtr) :
    (state.addBuffer buffer).1 = 0 ↔
      (state.buffers buffer).stream ≠ none ∧ (state.buffers buffer).stream ∉ state.request.bufferMap := by
  rcases addBuffer_cases state buffer with ⟨null, added⟩ | ⟨_, bound, added⟩ | ⟨_, free, added⟩ <;>
    simp_all [EINVAL, EEXIST]

/-- A call that returns an error leaves the whole state as it was. -/
theorem addBuffer_of_ne_zero {state : State} {buffer : BufferPtr}
    (failed : (state.addBuffer buffer).1 ≠ 0) :
    (state.addBuffer buffer).1 ∈ [-EINVAL, -EEXIST] ∧ (state.addBuffer buffer).2 = state := by
  rcases addBuffer_cases state buffer with ⟨_, added⟩ | ⟨_, _, added⟩ | ⟨_, _, added⟩ <;>
    simp_all

theorem addBuffer_of_eq_zero {state : State} {buffer : BufferPtr}
    (succeeded : (state.addBuffer buffer).1 = 0) :
    (state.addBuffer buffer).2 = state.bindBuffer (state.buffers buffer).stream buffer := by
  rcases addBuffer_cases state buffer with ⟨_, added⟩ | ⟨_, _, added⟩ | ⟨_, _, added⟩ <;>
    simp_all [EINVAL, EEXIST]

/-- `addBuffer` changes nothing but `bufferMap_`. -/
theorem addBuffer_frame (state : State) (buffer : BufferPtr) :
    (state.addBuffer buffer).2 =
      ⟨{ state.request with bufferMap := (state.addBuffer buffer).2.request.bufferMap },
        state.buffers⟩ := by
  rcases addBuffer_cases state buffer with ⟨_, added⟩ | ⟨_, _, added⟩ | ⟨_, _, added⟩ <;>
    simp [added, bindBuffer]

end State

/-- A request just constructed among `sampleBuffers`, with buffers `⟨0⟩` and `⟨1⟩` bound,
each under its own stream. -/
def twoBound : State :=
  (((State.new ⟨0⟩ 0 sampleBuffers).addBuffer ⟨0⟩).2.addBuffer ⟨1⟩).2

namespace State

/-! ## Pending buffers -/

/-- `Request::hasPendingBuffers()`: `!pending_.empty()`. -/
def hasPendingBuffers (state : State) : Bool :=
  !decide (state.request.pending = ∅)

@[simp] theorem hasPendingBuffers_eq_false (state : State) :
    state.hasPendingBuffers = false ↔ state.request.pending = ∅ := by
  simp [hasPendingBuffers]

/-- One pass of the loop in `Request::prepare`: `buffer->setRequest(this)` and
`pending_.insert(buffer)`. -/
def prepareBuffer (state : State) (buffer : BufferPtr) : State :=
  let claimed := state.setRequest buffer (some state.request.self)
  { claimed with request := { claimed.request with pending := insert buffer claimed.request.pending } }

/-- `Request::prepare()`: the return code and the state after the call. -/
def prepare (state : State) : Int × State :=
  if state.request.bufferMap.entries.isEmpty then
    (-EINVAL, state)
  else
    (0, state.request.bufferMap.values.foldl prepareBuffer state)

/-- The loop of `prepare` over any list of buffers: each is made pending and pointed at
this request, and nothing else changes. -/
theorem foldl_prepareBuffer (buffers : List BufferPtr) (state : State) :
    buffers.foldl prepareBuffer state =
      ⟨{ state.request with pending := state.request.pending ∪ buffers.toFinset },
        fun buffer => if buffer ∈ buffers then
          { state.buffers buffer with request := some state.request.self }
        else state.buffers buffer⟩ := by
  induction buffers generalizing state with
  | nil => simp
  | cons head tail inductionHypothesis =>
      rw [List.foldl_cons, inductionHypothesis]
      simp only [prepareBuffer, setRequest, List.toFinset_cons, Finset.union_insert,
        Finset.insert_union, List.mem_cons]
      congr 1
      funext buffer
      by_cases inTail : buffer ∈ tail <;> by_cases isHead : buffer = head <;>
        simp [inTail, isHead, Function.update_apply]

theorem prepare_of_empty {state : State} (empty : state.request.bufferMap.entries = []) :
    state.prepare = (-EINVAL, state) := by
  simp [prepare, empty]

theorem prepare_of_ne_empty {state : State} (nonempty : state.request.bufferMap.entries ≠ []) :
    state.prepare = (0, ⟨{ state.request with
        pending := state.request.pending ∪ state.request.bufferMap.values.toFinset },
      fun buffer => if buffer ∈ state.request.bufferMap.values then
        { state.buffers buffer with request := some state.request.self }
      else state.buffers buffer⟩) := by
  simp [prepare, List.isEmpty_iff, nonempty, foldl_prepareBuffer]

/-- `prepare` changes nothing but `pending_` and the buffers' request pointers. -/
theorem prepare_frame (state : State) :
    state.prepare.2 =
      ⟨{ state.request with pending := state.prepare.2.request.pending }, state.prepare.2.buffers⟩ := by
  by_cases empty : state.request.bufferMap.entries = []
  · simp [prepare_of_empty empty]
  · simp [prepare_of_ne_empty empty]

theorem prepare_eq_zero_iff (state : State) :
    state.prepare.1 = 0 ↔ state.request.bufferMap.entries ≠ [] := by
  by_cases empty : state.request.bufferMap.entries = []
  · simp [prepare_of_empty empty, empty, EINVAL]
  · simp [prepare_of_ne_empty empty, empty]

/-- A second `prepare()` right after a successful one changes nothing. -/
theorem prepare_prepare {state : State} (prepared : state.prepare.1 = 0) :
    state.prepare.2.prepare = (0, state.prepare.2) := by
  have nonempty := (prepare_eq_zero_iff state).1 prepared
  rw [prepare_of_ne_empty nonempty]
  dsimp only
  rw [prepare_of_ne_empty]
  · simp only [Finset.union_assoc, Finset.union_self, Prod.mk.injEq, true_and, State.mk.injEq]
    funext buffer
    split <;> simp_all
  · exact nonempty

theorem prepare_prepare_of_twoBound :
    twoBound.prepare.1 = 0 ∧ twoBound.prepare.2.prepare = (0, twoBound.prepare.2) :=
  ⟨by decide, prepare_prepare (by decide)⟩

/-! ## Completion -/

/-- `Request::complete()`; `none` when `ASSERT(!hasPendingBuffers())` fails. -/
def complete (state : State) : Option State :=
  if state.hasPendingBuffers then
    none
  else
    some { state with request := { state.request with
      status := if state.request.cancelled then .requestCancelled else .requestComplete } }

/-- `Request::completeBuffer(buffer)`: whether no buffer is left pending, and the state
after the call; `none` when `ASSERT(ret == 1)` fails. -/
def completeBuffer (state : State) (buffer : BufferPtr) : Option (Bool × State) :=
  -- `int ret = pending_.erase(buffer);`
  let ret : Nat := if buffer ∈ state.request.pending then 1 else 0
  let erased : State :=
    { state with request := { state.request with pending := state.request.pending.erase buffer } }
  if ret ≠ 1 then
    none
  else
    let released := erased.setRequest buffer none
    let marked : State :=
      if (released.buffers buffer).status = .bufferCancelled then
        { released with request := { released.request with cancelled := true } }
      else released
    some (!marked.hasPendingBuffers, marked)

theorem complete_of_pending {state : State} (pending : state.request.pending ≠ ∅) :
    state.complete = none := by
  simp [complete, hasPendingBuffers, pending]

theorem complete_of_no_pending {state : State} (empty : state.request.pending = ∅) :
    state.complete = some { state with request := { state.request with
      status := if state.request.cancelled then .requestCancelled else .requestComplete } } := by
  simp [complete, hasPendingBuffers, empty]

theorem completeBuffer_of_not_mem {state : State} {buffer : BufferPtr}
    (absent : buffer ∉ state.request.pending) : state.completeBuffer buffer = none := by
  simp [completeBuffer, absent]

/-- Completing a pending buffer removes it from `pending_`, clears its request pointer,
raises `cancelled_` when the buffer was cancelled, and reports whether `pending_` is now
empty. -/
theorem completeBuffer_of_mem {state : State} {buffer : BufferPtr}
    (present : buffer ∈ state.request.pending) :
    state.completeBuffer buffer = some (decide (state.request.pending.erase buffer = ∅),
      ⟨{ state.request with
          pending := state.request.pending.erase buffer
          cancelled := state.request.cancelled ||
            decide ((state.buffers buffer).status = .bufferCancelled) },
        (state.setRequest buffer none).buffers⟩) := by
  by_cases cancelled : (state.buffers buffer).status = .bufferCancelled <;>
    simp [completeBuffer, present, cancelled, hasPendingBuffers, setRequest]

end State

end Libcamera.Request
