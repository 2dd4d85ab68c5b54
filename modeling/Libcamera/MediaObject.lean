import Mathlib.Data.List.Basic

/-!
Contract: the media graph objects of `media_object.cpp` (the third unnamed source file):
links, pads and entities as the media device builds them from the kernel's topology.

Owns: `MediaLink::setEnabled`, run against `MediaDevice::setupLink`, which is not among the
sources: one call takes it as a parameter, and a sequence of calls takes the device's answer
to each call, so that a device may refuse a request and accept the same request later;
`MediaPad::addLink`; `MediaEntity::addPad`; and the two pad lookups of `MediaEntity`, which
run the same loop on different keys and are one definition here.

Does not own: parsing the topology, `MediaEntity::setDeviceNode` (which only wraps
`access(2)`), or the pointers from pads to entities and from links to pads.

A `std::vector` of object pointers is a list of the objects; object ids are `unsigned int`,
so `UInt32`, and only compared.
-/

set_option autoImplicit false

namespace Libcamera

/-- `MEDIA_LNK_FL_ENABLED` of Linux's `media.h`. -/
def MEDIA_LNK_FL_ENABLED : UInt32 := 1

/-- The fields of a `MediaLink` that its methods use: `MediaObject::id_`, and `flags_`, a
mask of `MEDIA_LNK_FL_*` bits. -/
structure MediaLink where
  id : UInt32
  flags : UInt32
deriving DecidableEq, Repr

/-- The fields of a `MediaPad` that its methods and the lookups use: `MediaObject::id_`,
`index_` and `links_`. -/
structure MediaPad where
  id : UInt32
  /-- Unique among the pads of one entity. -/
  index : UInt32
  links : List MediaLink
deriving DecidableEq, Repr

/-- The fields of a `MediaEntity` that its methods use: `MediaObject::id_` and `pads_`. -/
structure MediaEntity where
  id : UInt32
  pads : List MediaPad
deriving DecidableEq, Repr

/-! ## Links -/

namespace MediaLink

/-- `MediaLink::setEnabled(enable)`, where `setupLink` is `MediaDevice::setupLink`: the code
it returns, and the link after the call. -/
def setEnabled (setupLink : MediaLink → UInt32 → Int) (link : MediaLink) (enable : Bool) :
    Int × MediaLink :=
  let flags : UInt32 := if enable then MEDIA_LNK_FL_ENABLED else 0
  let ret := setupLink link flags
  if ret ≠ 0 then (ret, link) else (0, { link with flags })

/-- `setEnabled` for each call in turn, each with what the device's `setupLink` answers to
it: the codes returned, and the link after. -/
def setEnabledAll (link : MediaLink) : List (Bool × Int) → List Int × MediaLink
  | [] => ([], link)
  | (enable, answer) :: rest =>
      let first := link.setEnabled (fun _ _ => answer) enable
      let later := first.2.setEnabledAll rest
      (first.1 :: later.1, later.2)

/-- The request among `calls`, each with the device's answer, that the device accepted
last. -/
def lastAccepted (calls : List (Bool × Int)) : Option Bool :=
  (calls.reverse.find? fun call => call.2 == 0).map Prod.fst

theorem lastAccepted_cons (call : Bool × Int) (calls : List (Bool × Int)) :
    lastAccepted (call :: calls) =
      (lastAccepted calls).or (if call.2 = 0 then some call.1 else none) := by
  cases found : calls.reverse.find? fun call => call.2 == 0 <;>
    by_cases accepted : call.2 = 0 <;> simp [lastAccepted, found, accepted]

/-- The device either accepts the new flags, which then replace all of `flags_`, or
refuses them, and the link is left as it was. -/
theorem setEnabled_cases (setupLink : MediaLink → UInt32 → Int) (link : MediaLink) (enable : Bool) :
    (setupLink link (if enable then MEDIA_LNK_FL_ENABLED else 0) = 0 ∧
      link.setEnabled setupLink enable =
        (0, { link with flags := if enable then MEDIA_LNK_FL_ENABLED else 0 })) ∨
    (setupLink link (if enable then MEDIA_LNK_FL_ENABLED else 0) ≠ 0 ∧
      link.setEnabled setupLink enable =
        (setupLink link (if enable then MEDIA_LNK_FL_ENABLED else 0), link)) := by
  unfold setEnabled
  by_cases accepted : setupLink link (if enable then MEDIA_LNK_FL_ENABLED else 0) = 0 <;>
    simp [accepted]

/-- Along any sequence of `setEnabled` calls, whatever the device answers to each, every
call returns the device's answer, the link keeps its id, and its flags are those of the
last call the device accepted: exactly `MEDIA_LNK_FL_ENABLED` or nothing, so any other flag
the kernel reported, `MEDIA_LNK_FL_IMMUTABLE` among them, is gone after the first accepted
call. With no call accepted, the flags are as they were. -/
theorem setEnabledAll_flags (calls : List (Bool × Int)) :
    ∀ link : MediaLink,
      (link.setEnabledAll calls).1 = calls.map Prod.snd ∧
      (link.setEnabledAll calls).2.id = link.id ∧
      (link.setEnabledAll calls).2.flags =
        ((lastAccepted calls).map fun enable => if enable then MEDIA_LNK_FL_ENABLED else 0).getD
          link.flags := by
  induction calls with
  | nil => simp [setEnabledAll, lastAccepted]
  | cons call rest inductionHypothesis =>
      obtain ⟨enable, answer⟩ := call
      intro link
      obtain ⟨codes, keepsId, flagsEq⟩ :=
        inductionHypothesis (link.setEnabled (fun _ _ => answer) enable).2
      simp only [setEnabledAll, List.map_cons, lastAccepted_cons, codes, keepsId, flagsEq]
      generalize lastAccepted rest = later
      rcases setEnabled_cases (fun _ _ => answer) link enable with ⟨accepted, first⟩ |
        ⟨refused, first⟩
      · rw [first]
        cases later <;> simp [accepted]
      · rw [first]
        cases later <;> simp [refused]

/- An enabled immutable link (flags `3`): a disable the device refuses changes nothing, the
same request accepted on a retry clears every flag, and enabling it again leaves only
`MEDIA_LNK_FL_ENABLED`. -/
example :
    (⟨0, 3⟩ : MediaLink).setEnabledAll [(false, -22), (false, 0), (true, 0)] =
      ([-22, 0, 0], ⟨0, 1⟩) := by
  decide

end MediaLink

/-- `MediaPad::addLink(link)`. -/
def MediaPad.addLink (pad : MediaPad) (link : MediaLink) : MediaPad :=
  { pad with links := pad.links ++ [link] }

/-! ## Pad lookups -/

namespace MediaEntity

/-- The loop that `getPadByIndex` and `getPadById` share: the first pad whose `key` is
`value`, or `nullptr`. -/
def findPad (key : MediaPad → UInt32) (entity : MediaEntity) (value : UInt32) :
    Option MediaPad :=
  entity.pads.find? fun pad => key pad == value

/-- `MediaEntity::getPadByIndex(index)`. -/
def getPadByIndex (entity : MediaEntity) (index : UInt32) : Option MediaPad :=
  entity.findPad MediaPad.index index

/-- `MediaEntity::getPadById(id)`. -/
def getPadById (entity : MediaEntity) (id : UInt32) : Option MediaPad :=
  entity.findPad MediaPad.id id

/-- `MediaEntity::addPad(pad)`. -/
def addPad (entity : MediaEntity) (pad : MediaPad) : MediaEntity :=
  { entity with pads := entity.pads ++ [pad] }

end MediaEntity

end Libcamera
