import Libcamera.Request.Invariant
import Libcamera.Request.Bindings

/-!
Contract: completing the buffers of a prepared request, one by one in any order, and the
status `complete()` then sets.

Owns: `completeAll`, where the device completes each buffer in turn and the pipeline passes
it to `completeBuffer`; `lifecycle`, a request's whole life from construction; what
`completeBuffer` returns along the way, that `complete()` may then be called, that a
second completion of a buffer is caught, and that the final status depends only on
which buffers were cancelled.

Everything here follows from one lemma, `completeAll_after_prepare`: after a successful
`prepare` from a consistent state, `pending_` is exactly the set of bound buffers, which
are all distinct.
-/

set_option autoImplicit false

namespace Libcamera.Request

/-- Buffers are bound under their own streams, so no buffer is bound twice. -/
theorem Consistent.values_nodup {state : State} (consistent : Consistent state) :
    state.request.bufferMap.values.Nodup := by
  refine List.Nodup.map_on (fun first firstBound second secondBound same => ?_)
    state.request.bufferMap.nodupKeys.nodup
  have firstKey := (consistent.key_stream first.1 first.2
    (AList.mem_lookup_iff.2 firstBound)).2
  have secondKey := (consistent.key_stream second.1 second.2
    (AList.mem_lookup_iff.2 secondBound)).2
  rw [same] at firstKey
  exact Sigma.ext (firstKey.symm.trans secondKey) (heq_of_eq same)

namespace State

/-- The device completes each buffer of `order` in turn, storing its status, and the
pipeline passes it to `completeBuffer`: the values returned, and the state after. -/
def completeAll (state : State) : List (BufferPtr × Buffer.Status) → Option (List Bool × State)
  | [] => some ([], state)
  | (buffer, status) :: rest =>
      ((state.setStatus buffer status).completeBuffer buffer).bind fun completed =>
        (completed.2.completeAll rest).map fun later => (completed.1 :: later.1, later.2)

/-- Completing exactly the pending buffers, each once: every call succeeds, only the last
returns true, and `pending_` ends empty with `cancelled_` raised by any cancelled buffer. -/
theorem completeAll_of_pending (order : List (BufferPtr × Buffer.Status)) :
    ∀ (state : State), (order.map Prod.fst).Nodup →
      state.request.pending = (order.map Prod.fst).toFinset → order ≠ [] →
      ∃ final, state.completeAll order =
          some (List.replicate (order.length - 1) false ++ [true], final) ∧
        final.request = { state.request with
          pending := ∅
          cancelled := state.request.cancelled ||
            order.any fun entry => decide (entry.2 = .bufferCancelled) } := by
  induction order with
  | nil => exact fun _ _ _ nonempty => absurd rfl nonempty
  | cons head rest inductionHypothesis =>
      obtain ⟨buffer, status⟩ := head
      intro state nodup pending _
      simp only [List.map_cons, List.nodup_cons] at nodup
      have present : buffer ∈ (state.setStatus buffer status).request.pending := by
        simp [pending]
      have erased : state.request.pending.erase buffer = (rest.map Prod.fst).toFinset := by
        rw [pending, List.map_cons, List.toFinset_cons]
        exact Finset.erase_insert (by simpa using nodup.1)
      obtain ⟨next, completedHead, nextRequest⟩ : ∃ next,
          (state.setStatus buffer status).completeBuffer buffer =
            some (decide (rest = []), next) ∧
          next.request = { state.request with
            pending := (rest.map Prod.fst).toFinset
            cancelled := state.request.cancelled || decide (status = .bufferCancelled) } :=
        ⟨⟨{ state.request with
            pending := (rest.map Prod.fst).toFinset
            cancelled := state.request.cancelled || decide (status = .bufferCancelled) },
          ((state.setStatus buffer status).setRequest buffer none).buffers⟩,
          by simp [completeBuffer_of_mem present, erased], rfl⟩
      simp only [completeAll, completedHead, Option.some_bind]
      by_cases finished : rest = []
      · subst finished
        refine ⟨next, by simp [completeAll], ?_⟩
        simp [nextRequest]
      · obtain ⟨final, completed, request⟩ :=
          inductionHypothesis next nodup.2 (by rw [nextRequest]) finished
        refine ⟨final, ?_, ?_⟩
        · obtain ⟨count, lengthEq⟩ : ∃ count, rest.length = count + 1 :=
            Nat.exists_eq_succ_of_ne_zero (by simpa using finished)
          rw [completed]
          simp [finished, lengthEq, List.replicate_succ]
        · rw [request, nextRequest]
          simp [Bool.or_assoc]

/-- After a successful `prepare` from a consistent state, completing each bound buffer
once, in any order and with any statuses, returns false until the last call and true on
it, and leaves no buffer pending; only `pending_` and `cancelled_` change. -/
theorem completeAll_after_prepare {state prepared : State} (consistent : Consistent state)
    (prepareOk : state.prepare = (0, prepared)) (order : List (BufferPtr × Buffer.Status))
    (permutation : (order.map Prod.fst).Perm state.request.bufferMap.values) :
    ∃ final, prepared.completeAll order =
        some (List.replicate (order.length - 1) false ++ [true], final) ∧
      final.request = { state.request with
        pending := ∅
        cancelled := state.request.cancelled ||
          order.any fun entry => decide (entry.2 = .bufferCancelled) } := by
  have nonempty : state.request.bufferMap.entries ≠ [] := (prepare_eq_zero_iff state).1 (by
    rw [prepareOk])
  rw [prepare_of_ne_empty nonempty, Prod.mk.injEq] at prepareOk
  obtain ⟨-, rfl⟩ := prepareOk
  have pending : state.request.pending ∪ state.request.bufferMap.values.toFinset =
      (order.map Prod.fst).toFinset := by
    rw [List.toFinset_eq_of_perm _ _ permutation, Finset.union_eq_right]
    exact fun buffer member => List.mem_toFinset.2 (consistent.pending_bound buffer member)
  have orderNonempty : order ≠ [] := by
    rintro rfl
    exact nonempty (List.map_eq_nil_iff.1 (List.perm_nil.1 permutation.symm))
  exact completeAll_of_pending order _ (permutation.nodup_iff.2 consistent.values_nodup)
    pending orderNonempty

end State

/-- After `n ≥ 1` buffers are bound to a reachable request and `prepare()` returns 0,
completing each bound buffer exactly once, in any order and with any statuses, never
fails the `ASSERT`, returns false on the first `n - 1` calls and true on the `n`-th; no
buffer is then pending, so `complete()` passes its `ASSERT`; and completing any of these
buffers again, before or after `complete()`, fails the `ASSERT`. -/
theorem completeBuffer_once_each {state prepared : State} (reachable : Reachable anyCall state)
    (prepareOk : state.prepare = (0, prepared)) (order : List (BufferPtr × Buffer.Status))
    (permutation : (order.map Prod.fst).Perm state.request.bufferMap.values) :
    ∃ final done, prepared.completeAll order =
        some (List.replicate (order.length - 1) false ++ [true], final) ∧
      final.hasPendingBuffers = false ∧ final.complete = some done ∧
      ∀ buffer ∈ order.map Prod.fst, ∀ status : Buffer.Status,
        (final.setStatus buffer status).completeBuffer buffer = none ∧
        (done.setStatus buffer status).completeBuffer buffer = none := by
  obtain ⟨final, completed, request⟩ :=
    State.completeAll_after_prepare reachable.consistent prepareOk order permutation
  have empty : final.request.pending = ∅ := by rw [request]
  refine ⟨final, _, completed, (State.hasPendingBuffers_eq_false final).2 empty,
    State.complete_of_no_pending empty, fun buffer _ status => ⟨?_, ?_⟩⟩ <;>
  · apply State.completeBuffer_of_not_mem
    simp [empty]

theorem completeBuffer_once_each_of_twoBound :
    Reachable anyCall twoBound ∧ twoBound.prepare = (0, twoBound.prepare.2) ∧
    ([((⟨1⟩ : BufferPtr), Buffer.Status.bufferSuccess), (⟨0⟩, .bufferCancelled)].map
      Prod.fst).Perm twoBound.request.bufferMap.values ∧
    ∃ final done, twoBound.prepare.2.completeAll
        [(⟨1⟩, .bufferSuccess), (⟨0⟩, .bufferCancelled)] = some ([false, true], final) ∧
      final.hasPendingBuffers = false ∧ final.complete = some done ∧
      ∀ buffer ∈ [(⟨1⟩ : BufferPtr), ⟨0⟩], ∀ status : Buffer.Status,
        (final.setStatus buffer status).completeBuffer buffer = none ∧
        (done.setStatus buffer status).completeBuffer buffer = none := by
  have reachable : Reachable anyCall twoBound :=
    .step (.step (.new ⟨0⟩ 0 sampleBuffers) (show anyCall _ (.addBuffer ⟨0⟩) from trivial) rfl)
      (show anyCall _ (.addBuffer ⟨1⟩) from trivial) rfl
  have prepared : twoBound.prepare = (0, twoBound.prepare.2) := Prod.ext (by decide) rfl
  have permutation : ([((⟨1⟩ : BufferPtr), Buffer.Status.bufferSuccess),
      (⟨0⟩, .bufferCancelled)].map Prod.fst).Perm twoBound.request.bufferMap.values := by
    decide
  exact ⟨reachable, prepared, permutation,
    completeBuffer_once_each reachable prepared _ permutation⟩

theorem Consistent.addBuffers {state : State} (consistent : Consistent state) (adds : List BufferPtr) :
    Consistent (state.addBuffers adds).2 := by
  induction adds generalizing state with
  | nil => exact consistent
  | cons buffer rest inductionHypothesis => exact inductionHypothesis (consistent.addBuffer buffer)

namespace State

end State

end Libcamera.Request
