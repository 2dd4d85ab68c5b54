import Libcamera.Request.Run

/-!
Contract: what holds in every state a request reaches.

Owns: `Consistent`, kept by every call whatever the callers do: `pending_` holds only bound
buffers, every entry of `bufferMap_` is keyed by its buffer's own stream, and
`RequestCancelled` is never set without `cancelled_`. It also owns `Owned`, kept when every
buffer handed to `addBuffer` names no request yet: a bound buffer points back at the
request exactly while it is pending.

Each invariant has one lemma per method and one for `step`, and follows for every
reachable state from `Reachable.induction_on`.
-/

set_option autoImplicit false

namespace Libcamera.Request

/-- What every reachable state satisfies, whatever the callers do. -/
structure Consistent (state : State) : Prop where
  /-- `pending_` holds only buffers bound in `bufferMap_`. -/
  pending_bound : ∀ buffer ∈ state.request.pending, buffer ∈ state.request.bufferMap.values
  /-- Every entry is keyed by the stream of its buffer, which is not null. -/
  key_stream : ∀ stream buffer, state.request.bufferMap.lookup stream = some buffer →
    stream ≠ none ∧ (state.buffers buffer).stream = stream
  /-- `status_` becomes `RequestCancelled` only from `cancelled_`. -/
  cancelled_of_status : state.request.status = .requestCancelled → state.request.cancelled = true

namespace Consistent

theorem new (self : RequestPtr) (cookie : UInt64) (buffers : BufferPtr → Buffer) :
    Consistent (State.new self cookie buffers) where
  pending_bound := by simp [State.new, Request.new]
  key_stream := by simp [State.new, Request.new]
  cancelled_of_status := by simp [State.new, Request.new]

variable {state : State} (consistent : Consistent state)
include consistent

/-- A buffer bound in the map is keyed by its own stream, so the stream is in the map. -/
theorem stream_mem_of_bound {buffer : BufferPtr} (bound : buffer ∈ state.request.bufferMap.values) :
    (state.buffers buffer).stream ∈ state.request.bufferMap := by
  obtain ⟨stream, found⟩ := BufferMap.mem_values.1 bound
  rw [(consistent.key_stream stream buffer found).2, ← AList.lookup_isSome, found]
  rfl

theorem addBuffer (buffer : BufferPtr) : Consistent (state.addBuffer buffer).2 := by
  rcases State.addBuffer_cases state buffer with ⟨_, added⟩ | ⟨_, _, added⟩ | ⟨named, absent, added⟩
  · rwa [added]
  · rwa [added]
  rw [added]
  refine ⟨fun other pending => ?_, fun stream other found => ?_, consistent.cancelled_of_status⟩
  · simp only [State.bindBuffer, BufferMap.values_insert absent]
    exact List.mem_cons_of_mem _ (consistent.pending_bound other pending)
  · simp only [State.bindBuffer] at found
    by_cases same : stream = (state.buffers buffer).stream
    · subst same
      rw [AList.lookup_insert] at found
      cases found
      exact ⟨named, rfl⟩
    · rw [AList.lookup_insert_ne same] at found
      exact consistent.key_stream stream other found

theorem prepare : Consistent state.prepare.2 := by
  by_cases empty : state.request.bufferMap.entries = []
  · rwa [State.prepare_of_empty empty]
  rw [State.prepare_of_ne_empty empty]
  refine ⟨fun buffer pending => ?_, fun stream buffer found => ?_, consistent.cancelled_of_status⟩
  · rcases Finset.mem_union.1 pending with pending | bound
    · exact consistent.pending_bound buffer pending
    · exact List.mem_toFinset.1 bound
  · dsimp only at found ⊢
    refine ⟨(consistent.key_stream stream buffer found).1, ?_⟩
    split <;> exact (consistent.key_stream stream buffer found).2

theorem step {call : Call} {next : State} (stepped : state.step call = some next) :
    Consistent next := by
  rcases State.step_cases stepped with ⟨buffer, -, rfl⟩ | ⟨-, rfl⟩ | ⟨buffer, -, -, rfl⟩ |
    ⟨-, -, rfl⟩ | ⟨buffer, status, -, rfl⟩
  · exact consistent.addBuffer buffer
  · exact consistent.prepare
  · refine ⟨fun other pending => consistent.pending_bound other (Finset.mem_of_mem_erase pending),
      fun stream other found => ?_, fun cancelled => ?_⟩
    · simpa using consistent.key_stream stream other found
    · simp [consistent.cancelled_of_status cancelled]
  · exact ⟨consistent.pending_bound, consistent.key_stream, fun cancelled => by simpa using cancelled⟩
  · exact ⟨consistent.pending_bound,
      fun stream other found => by simpa using consistent.key_stream stream other found,
      consistent.cancelled_of_status⟩

end Consistent

theorem Reachable.consistent {discipline : State → Call → Prop} {state : State}
    (reachable : Reachable discipline state) : Consistent state :=
  reachable.induction_on Consistent.new fun consistent _ stepped => consistent.step stepped

theorem consistent_of_twoBound :
    ∃ state, twoBound.run [.prepare, .setStatus ⟨0⟩ .bufferCancelled, .completeBuffer ⟨0⟩] =
      some state ∧ Reachable anyCall state ∧ Consistent state := by
  obtain ⟨state, ran⟩ := Option.isSome_iff_exists.1
    (show (twoBound.run [.prepare, .setStatus ⟨0⟩ .bufferCancelled, .completeBuffer ⟨0⟩]).isSome
      by decide)
  have bound : Reachable anyCall twoBound :=
    .step (.step (.new ⟨0⟩ 0 sampleBuffers) (show anyCall _ (.addBuffer ⟨0⟩) from trivial) rfl)
      (show anyCall _ (.addBuffer ⟨1⟩) from trivial) rfl
  have reachable := bound.run _ ran
  exact ⟨state, ran, reachable, reachable.consistent⟩

/-! ## Bound buffers point back at the request while pending -/

/-- The callers' discipline: a buffer handed to `addBuffer` names no request. -/
def handsUnclaimed : State → Call → Prop
  | state, .addBuffer buffer => (state.buffers buffer).request = none
  | _, _ => True

/-- A bound buffer points back at the request exactly while it is pending. -/
def Owned (state : State) : Prop :=
  ∀ buffer ∈ state.request.bufferMap.values,
    (state.buffers buffer).request = some state.request.self ↔ buffer ∈ state.request.pending

namespace Owned

theorem new (self : RequestPtr) (cookie : UInt64) (buffers : BufferPtr → Buffer) :
    Owned (State.new self cookie buffers) := by
  simp [Owned, State.new, Request.new, BufferMap.values]

variable {state : State} (owned : Owned state)
include owned

/-- A buffer newly bound names no request, and is not pending since it was not bound. -/
theorem addBuffer (consistent : Consistent state) {buffer : BufferPtr}
    (unclaimed : (state.buffers buffer).request = none) : Owned (state.addBuffer buffer).2 := by
  rcases State.addBuffer_cases state buffer with ⟨_, added⟩ | ⟨_, _, added⟩ | ⟨_, absent, added⟩
  · rwa [added]
  · rwa [added]
  rw [added]
  intro other bound
  simp only [State.bindBuffer, BufferMap.values_insert absent, List.mem_cons] at bound ⊢
  rcases bound with rfl | bound
  · have notPending : other ∉ state.request.pending := fun pending =>
      absent (consistent.stream_mem_of_bound (consistent.pending_bound other pending))
    simp [unclaimed, notPending]
  · exact owned other bound

theorem prepare : Owned state.prepare.2 := by
  by_cases empty : state.request.bufferMap.entries = []
  · rwa [State.prepare_of_empty empty]
  rw [State.prepare_of_ne_empty empty]
  intro buffer bound
  dsimp only at bound ⊢
  simp [bound]

theorem step (consistent : Consistent state) {call : Call} {next : State}
    (allowed : handsUnclaimed state call) (stepped : state.step call = some next) : Owned next := by
  rcases State.step_cases stepped with ⟨buffer, rfl, rfl⟩ | ⟨-, rfl⟩ | ⟨buffer, -, -, rfl⟩ |
    ⟨-, -, rfl⟩ | ⟨buffer, status, -, rfl⟩
  · exact owned.addBuffer consistent allowed
  · exact owned.prepare
  · intro other bound
    dsimp only at bound ⊢
    rw [State.setRequest_buffer_request]
    by_cases same : other = buffer
    · simp [same]
    · simp [same, owned other bound]
  · exact owned
  · exact fun other bound => by simpa using owned other bound

end Owned

/-- In every state reached by calls that hand `addBuffer` only buffers naming no request,
`pending_` holds only bound buffers, and a bound buffer's `request()` is this request
exactly while the buffer is pending. -/
theorem buffer_request_iff_pending {state : State} (reachable : Reachable handsUnclaimed state) :
    (∀ buffer ∈ state.request.pending, buffer ∈ state.request.bufferMap.values) ∧
    ∀ buffer ∈ state.request.bufferMap.values,
      ((state.buffers buffer).request = some state.request.self ↔
        buffer ∈ state.request.pending) := by
  have invariant : Consistent state ∧ Owned state :=
    reachable.induction_on (motive := fun state => Consistent state ∧ Owned state)
      (fun self cookie buffers => ⟨.new self cookie buffers, .new self cookie buffers⟩)
      fun ⟨consistent, owned⟩ allowed stepped =>
        ⟨consistent.step stepped, owned.step consistent allowed stepped⟩
  exact ⟨invariant.1.pending_bound, invariant.2⟩

theorem buffer_request_iff_pending_of_twoBound :
    ∃ state, twoBound.prepare.2.step (.completeBuffer ⟨1⟩) = some state ∧
      Reachable handsUnclaimed state ∧
      (∀ buffer ∈ state.request.pending, buffer ∈ state.request.bufferMap.values) ∧
      ∀ buffer ∈ state.request.bufferMap.values,
        ((state.buffers buffer).request = some state.request.self ↔
          buffer ∈ state.request.pending) := by
  obtain ⟨state, stepped⟩ := Option.isSome_iff_exists.1
    (show (twoBound.prepare.2.step (.completeBuffer ⟨1⟩)).isSome by decide)
  have reachable : Reachable handsUnclaimed state :=
    .step (.step (.step (.step (.new ⟨0⟩ 0 sampleBuffers)
      (show handsUnclaimed _ (.addBuffer ⟨0⟩) from rfl) rfl)
      (show handsUnclaimed _ (.addBuffer ⟨1⟩) from rfl) rfl)
      (show handsUnclaimed _ .prepare from trivial) rfl)
      (show handsUnclaimed _ (.completeBuffer ⟨1⟩) from trivial) stepped
  exact ⟨state, stepped, reachable, buffer_request_iff_pending reachable⟩

end Libcamera.Request
