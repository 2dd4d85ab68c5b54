import Libcamera.Request.Methods

/-!
Contract: what a sequence of `addBuffer` calls leaves in `bufferMap_`, as `findBuffer`
sees it.

Owns: `addBuffers`, the calls made one after another; `firstSuccessful`, the reference
map in which the first successful call for a stream wins; and the agreement of the two
over every sequence, from any state.

Does not own: what `prepare` and the completions do with the bound buffers.
-/

set_option autoImplicit false

namespace Libcamera.Request

namespace State

/-- `addBuffer` for each buffer in turn: the codes returned, and the state after. -/
def addBuffers (state : State) : List BufferPtr → List Int × State
  | [] => ([], state)
  | buffer :: rest =>
      let added := state.addBuffer buffer
      let later := added.2.addBuffers rest
      (added.1 :: later.1, later.2)

@[simp] theorem addBuffers_nil (state : State) : state.addBuffers [] = ([], state) := rfl

@[simp] theorem addBuffers_cons (state : State) (buffer : BufferPtr) (rest : List BufferPtr) :
    state.addBuffers (buffer :: rest) =
      ((state.addBuffer buffer).1 :: ((state.addBuffer buffer).2.addBuffers rest).1,
        ((state.addBuffer buffer).2.addBuffers rest).2) := rfl

/-- One code for each call. -/
@[simp] theorem addBuffers_length (state : State) (adds : List BufferPtr) :
    (state.addBuffers adds).1.length = adds.length := by
  induction adds generalizing state with
  | nil => rfl
  | cons buffer rest inductionHypothesis => simp [inductionHypothesis]

@[simp] theorem addBuffer_buffers (state : State) (buffer : BufferPtr) :
    (state.addBuffer buffer).2.buffers = state.buffers := by
  rw [addBuffer_frame]

@[simp] theorem addBuffers_buffers (state : State) (adds : List BufferPtr) :
    (state.addBuffers adds).2.buffers = state.buffers := by
  induction adds generalizing state with
  | nil => rfl
  | cons buffer rest inductionHypothesis => simp [inductionHypothesis]

/-- `addBuffer` succeeds exactly on a buffer with a stream that `findBuffer` does not find. -/
theorem addBuffer_eq_zero_iff_unbound (state : State) (buffer : BufferPtr) :
    (state.addBuffer buffer).1 = 0 ↔
      (state.buffers buffer).stream ≠ none ∧ state.findBuffer (state.buffers buffer).stream = none := by
  rw [addBuffer_eq_zero_iff, findBuffer, AList.lookup_eq_none]

/-- A successful call makes `findBuffer` return the new buffer for its stream and leaves
every other stream as it was. -/
theorem findBuffer_addBuffer_of_eq_zero {state : State} {buffer : BufferPtr}
    (succeeded : (state.addBuffer buffer).1 = 0) (stream : Option Stream) :
    (state.addBuffer buffer).2.findBuffer stream =
      if stream = (state.buffers buffer).stream then some buffer else state.findBuffer stream := by
  rw [addBuffer_of_eq_zero succeeded]
  by_cases same : stream = (state.buffers buffer).stream
  · subst same
    simp [findBuffer, bindBuffer]
  · simp [findBuffer, bindBuffer, same]

end State

/-- Reference from the spec: the buffer of the first call among `calls`, each with the
code it returned, that succeeded with a buffer on `stream`. -/
def firstSuccessful (buffers : BufferPtr → Buffer) (calls : List (BufferPtr × Int))
    (stream : Option Stream) : Option BufferPtr :=
  (calls.find? fun call => decide (call.2 = 0 ∧ (buffers call.1).stream = stream)).map Prod.fst

namespace State

/-- After a sequence of calls, `findBuffer` returns what the map held before, or else the
buffer of the first successful call on the stream. -/
theorem findBuffer_addBuffers (state : State) (adds : List BufferPtr) (stream : Option Stream) :
    (state.addBuffers adds).2.findBuffer stream =
      (state.findBuffer stream <|>
        firstSuccessful state.buffers (adds.zip (state.addBuffers adds).1) stream) := by
  induction adds generalizing state with
  | nil => simp [firstSuccessful]
  | cons buffer rest inductionHypothesis =>
      rw [addBuffers_cons, inductionHypothesis, addBuffer_buffers]
      by_cases succeeded : (state.addBuffer buffer).1 = 0
      · rw [findBuffer_addBuffer_of_eq_zero succeeded]
        have unbound := ((addBuffer_eq_zero_iff_unbound state buffer).1 succeeded).2
        by_cases same : stream = (state.buffers buffer).stream
        · subst same
          simp [firstSuccessful, succeeded, unbound]
        · simp [firstSuccessful, same, Ne.symm same]
      · rw [(addBuffer_of_ne_zero succeeded).2]
        simp [firstSuccessful, succeeded]

/-- A successful `addBuffer` never displaces a binding. -/
theorem findBuffer_addBuffer_of_found {state : State} {stream : Option Stream} {bound : BufferPtr}
    (found : state.findBuffer stream = some bound) (buffer : BufferPtr) :
    (state.addBuffer buffer).2.findBuffer stream = some bound := by
  by_cases succeeded : (state.addBuffer buffer).1 = 0
  · rw [findBuffer_addBuffer_of_eq_zero succeeded]
    have unbound := ((addBuffer_eq_zero_iff_unbound state buffer).1 succeeded).2
    split
    · simp_all
    · exact found
  · rwa [(addBuffer_of_ne_zero succeeded).2]

end State

/-- For every sequence of `addBuffer` calls on a request just constructed: each call returns
one code; a call returns 0 exactly when its buffer names a stream that no earlier successful call bound; a call that
returns `-EINVAL` or `-EEXIST` leaves `bufferMap_` as it was; afterwards `findBuffer(s)`
returns the buffer of the first successful call on `s`, or `nullptr`; a successful call
never displaces a binding; and every entry is keyed by its buffer's stream. -/
theorem addBuffer_first_wins (self : RequestPtr) (cookie : UInt64) (buffers : BufferPtr → Buffer)
    (adds : List BufferPtr) :
    ((State.new self cookie buffers).addBuffers adds).1.length = adds.length ∧
    (∀ (earlier : List BufferPtr) (buffer : BufferPtr),
      (((State.new self cookie buffers).addBuffers earlier).2.addBuffer buffer).1 = 0 ↔
        (buffers buffer).stream ≠ none ∧
          ∀ call ∈ earlier.zip ((State.new self cookie buffers).addBuffers earlier).1,
            call.2 = 0 → (buffers call.1).stream ≠ (buffers buffer).stream) ∧
    (∀ (state : State) (buffer : BufferPtr), (state.addBuffer buffer).1 ∈ [-EINVAL, -EEXIST] →
      (state.addBuffer buffer).2.request.bufferMap = state.request.bufferMap) ∧
    (∀ stream, ((State.new self cookie buffers).addBuffers adds).2.findBuffer stream =
      firstSuccessful buffers (adds.zip ((State.new self cookie buffers).addBuffers adds).1)
        stream) ∧
    (∀ (state : State) (buffer : BufferPtr) (stream : Option Stream) (bound : BufferPtr),
      state.findBuffer stream = some bound →
        (state.addBuffer buffer).2.findBuffer stream = some bound) ∧
    (∀ stream bound, ((State.new self cookie buffers).addBuffers adds).2.findBuffer stream =
      some bound → (buffers bound).stream = stream) := by
  have fromNew : ∀ (calls : List BufferPtr) stream,
      ((State.new self cookie buffers).addBuffers calls).2.findBuffer stream =
        firstSuccessful buffers (calls.zip ((State.new self cookie buffers).addBuffers calls).1)
          stream := fun calls stream => by
    simpa [State.findBuffer, State.new, Request.new] using
      State.findBuffer_addBuffers (State.new self cookie buffers) calls stream
  refine ⟨State.addBuffers_length _ adds, fun earlier buffer => ?_, fun state buffer failed => ?_,
    fromNew adds,
    fun state buffer stream bound found => State.findBuffer_addBuffer_of_found found buffer,
    fun stream bound found => ?_⟩
  · rw [State.addBuffer_eq_zero_iff_unbound, State.addBuffers_buffers, fromNew]
    simp [firstSuccessful, State.new]
  · have nonzero : (state.addBuffer buffer).1 ≠ 0 := by
      simp only [List.mem_cons, List.mem_singleton, List.not_mem_nil, or_false] at failed
      rcases failed with failed | failed <;> simp [failed, EINVAL, EEXIST]
    rw [(State.addBuffer_of_ne_zero nonzero).2]
  · rw [fromNew, firstSuccessful, Option.map_eq_some'] at found
    obtain ⟨call, first, rfl⟩ := found
    have matched := List.find?_some first
    simp only [decide_eq_true_eq] at matched
    exact matched.2

end Libcamera.Request
