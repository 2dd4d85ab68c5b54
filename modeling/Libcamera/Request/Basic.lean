import Mathlib.Data.List.AList
import Mathlib.Data.Finset.Basic

/-!
Contract: the data that `Request` in `src/libcamera/request.cpp` reads and writes.

Owns: the identities of streams, buffers and requests; `Buffer::Status` and
`Request::Status`; the request's own fields and its constructor; the buffer objects the
request reaches through pointers, with the two writes they receive: `Buffer::setRequest`
from the request, and the status the device stores when a buffer completes.

Does not own: the request's methods (`Methods`) or runs of calls (`Run`).

C++ pointers are identities. `Option Stream` is a `Stream *`, with `none` for `nullptr`;
`BufferPtr` is a `Buffer *` that is not null, and `Option RequestPtr` is a `Request *`.
`bufferMap_` is an `AList`, which carries the uniqueness of its keys. The order in which
`std::map` iterates is not modelled: the one loop over the map, in `prepare`, ends in the
same state in every order. `pending_` is a `Finset`.

The C++ types are in `Libcamera`, as they are in `libcamera`; the model of a request's life,
its state with the buffers it reaches and the calls made on it, is in `Libcamera.Request`.
-/

set_option autoImplicit false

namespace Libcamera

/-- A `Stream` object, known by its address. -/
structure Stream where
  address : Nat
deriving DecidableEq, Repr

/-- A `Buffer *` that is not null. -/
structure BufferPtr where
  address : Nat
deriving DecidableEq, Repr

/-- A `Request *` that is not null. -/
structure RequestPtr where
  address : Nat
deriving DecidableEq, Repr

/-- Modelled from the spec: `Buffer::Status`, declared in `buffer.h`, which is not among the
sources. The spec names the statuses Success and Cancelled; `request.cpp` only tests for
`BufferCancelled`. -/
inductive Buffer.Status where
  | bufferSuccess
  | bufferCancelled
deriving DecidableEq, Repr

/-- The fields of a `Buffer` object that `request.cpp` reads or writes. -/
structure Buffer where
  /-- `stream_`, fixed when the stream creates the buffer. -/
  stream : Option Stream
  /-- `status_`, stored by the device when the buffer completes. -/
  status : Buffer.Status
  /-- `request_`, written by `Buffer::setRequest`. -/
  request : Option RequestPtr
deriving DecidableEq, Repr

/-- `Request::Status`. -/
inductive Request.Status where
  | requestPending
  | requestComplete
  | requestCancelled
deriving DecidableEq, Repr

/-- `std::map<Stream *, Buffer *> bufferMap_`. -/
abbrev BufferMap := AList (fun _ : Option Stream => BufferPtr)

/-- The buffers a map binds, one for each entry. -/
def BufferMap.values (map : BufferMap) : List BufferPtr :=
  map.entries.map Sigma.snd

theorem BufferMap.mem_values {map : BufferMap} {buffer : BufferPtr} :
    buffer ∈ map.values ↔ ∃ stream, map.lookup stream = some buffer := by
  simp only [values, List.mem_map, ← Option.mem_def, AList.mem_lookup_iff]
  exact ⟨fun ⟨entry, member, same⟩ => ⟨entry.1, same ▸ member⟩,
    fun ⟨stream, member⟩ => ⟨_, member, rfl⟩⟩

theorem BufferMap.entries_eq_nil_iff {map : BufferMap} :
    map.entries = [] ↔ ∀ stream, map.lookup stream = none := by
  refine ⟨fun empty stream => ?_, fun absent => ?_⟩
  · rw [AList.lookup_eq_none, AList.mem_keys, AList.keys, empty]
    exact List.not_mem_nil _
  · cases entries : map.entries with
    | nil => rfl
    | cons entry _ =>
        have found : entry.2 ∈ map.lookup entry.1 :=
          AList.mem_lookup_iff.2 (by rw [entries]; exact List.mem_cons_self _ _)
        rw [absent] at found
        cases found

/-- Binding a buffer at a stream not yet in the map adds it in front of the map's values. -/
theorem BufferMap.values_insert {map : BufferMap} {stream : Option Stream} {buffer : BufferPtr}
    (absent : stream ∉ map) : BufferMap.values (map.insert stream buffer) = buffer :: map.values := by
  simp only [BufferMap.values, AList.insert_entries_of_neg absent, List.map_cons]

/-- The fields of a `Request` that its methods use. The camera and the control list are
left out: no modelled method reads them. -/
structure Request where
  /-- `this`. -/
  self : RequestPtr
  cookie : UInt64
  bufferMap : BufferMap
  pending : Finset BufferPtr
  status : Request.Status
  cancelled : Bool

namespace Request

/-- `Request::Request(camera, cookie)`. -/
def new (self : RequestPtr) (cookie : UInt64) : Request where
  self := self
  cookie := cookie
  bufferMap := ∅
  pending := ∅
  status := .requestPending
  cancelled := false

/-- A request with the buffer objects it reaches through pointers. -/
structure State where
  request : Request
  buffers : BufferPtr → Buffer

/-- Buffer objects for concrete runs: each on the stream with its own address, completed
successfully, and naming no request. -/
def sampleBuffers : BufferPtr → Buffer :=
  fun buffer => ⟨some ⟨buffer.address⟩, .bufferSuccess, none⟩

namespace State

/-- A request just constructed, among buffer objects in any state. -/
def new (self : RequestPtr) (cookie : UInt64) (buffers : BufferPtr → Buffer) : State :=
  ⟨Request.new self cookie, buffers⟩

/-- `buffer->setRequest(request)`. -/
def setRequest (state : State) (buffer : BufferPtr) (request : Option RequestPtr) : State :=
  { state with
    buffers := Function.update state.buffers buffer { state.buffers buffer with request } }

/-- The device stores `status` in `buffer` when it completes it. This is not a method of
`Request`: it is the only write to a buffer that the request does not make. -/
def setStatus (state : State) (buffer : BufferPtr) (status : Buffer.Status) : State :=
  { state with
    buffers := Function.update state.buffers buffer { state.buffers buffer with status } }

section Writes

variable (state : State) (buffer other : BufferPtr)

@[simp] theorem setRequest_request (request : Option RequestPtr) :
    (state.setRequest buffer request).request = state.request := rfl

@[simp] theorem setStatus_request (status : Buffer.Status) :
    (state.setStatus buffer status).request = state.request := rfl

@[simp] theorem setRequest_stream (request : Option RequestPtr) :
    ((state.setRequest buffer request).buffers other).stream = (state.buffers other).stream := by
  by_cases same : other = buffer <;> simp [setRequest, same]

@[simp] theorem setRequest_status (request : Option RequestPtr) :
    ((state.setRequest buffer request).buffers other).status = (state.buffers other).status := by
  by_cases same : other = buffer <;> simp [setRequest, same]

theorem setRequest_buffer_request (request : Option RequestPtr) :
    ((state.setRequest buffer request).buffers other).request =
      if other = buffer then request else (state.buffers other).request := by
  by_cases same : other = buffer <;> simp [setRequest, same]

@[simp] theorem setStatus_stream (status : Buffer.Status) :
    ((state.setStatus buffer status).buffers other).stream = (state.buffers other).stream := by
  by_cases same : other = buffer <;> simp [setStatus, same]

@[simp] theorem setStatus_buffer_request (status : Buffer.Status) :
    ((state.setStatus buffer status).buffers other).request = (state.buffers other).request := by
  by_cases same : other = buffer <;> simp [setStatus, same]

@[simp] theorem setStatus_status_self (status : Buffer.Status) :
    ((state.setStatus buffer status).buffers buffer).status = status := by
  simp [setStatus]

end Writes

end State

end Request

end Libcamera
