import RefineId.Pkcs11.Slots

/-! What every operation keeps of the slot table, and a refresh as one slot
sees it: an automaton over the sightings of its own reader. -/
namespace RefineId.Pkcs11

open Data Semantics List Nat Option PinStore SlotKind BTreeMap

/-- What a slot is bound to, whatever it is called. -/
inductive Device where
  | reader (id : ReaderId)
  | pairing (id : RemoteSlotId)
  deriving DecidableEq

namespace Device

def cacheKey : Device → String
  | reader id => id.asStr
  | pairing id => id.toHex

end Device

namespace SlotKind

def device : SlotKind → Device
  | atReader id => .reader id
  | remote id .. => .pairing id

theorem cacheKey_eq_device (kind : SlotKind) : kind.cacheKey = kind.device.cacheKey := by
  cases kind <;> rfl

theorem localReader_eq_some {kind : SlotKind} {id : ReaderId} :
    kind.localReader = some id ↔ kind.device = .reader id := by
  cases kind <;> simp [localReader, device]

theorem remotePairId_eq_some {kind : SlotKind} {id : RemoteSlotId} :
    kind.remotePairId = some id ↔ kind.device = .pairing id := by
  cases kind <;> simp [remotePairId, device]

end SlotKind

namespace PinStore
variable {pins before middle after : PinStore}

/-- Every key has a cache of its own. -/
structure Sound (pins : PinStore) : Prop where
  bounded : ∀ key ref, pins.processPinCaches.get? key = some ref → ref < pins.caches.length
  injective : ∀ key other ref, pins.processPinCaches.get? key = some ref →
    pins.processPinCaches.get? other = some ref → key = other

theorem Sound.empty : Sound PinStore.empty where
  bounded key ref h := by simp [PinStore.empty] at h
  injective key other ref h := by simp [PinStore.empty] at h

/-- Later caches of the process: no key changes its cache, and every cache is
related to what it was. -/
structure Grows (related : System → System → Prop) (before after : PinStore) : Prop where
  keys : ∀ key ref, before.processPinCaches.get? key = some ref →
    after.processPinCaches.get? key = some ref
  caches : ∀ (ref : CacheRef) (system : System), before.caches[ref]? = some system →
    ∃ later, after.caches[ref]? = some later ∧ related system later
  sound : Sound before → Sound after

/-- The refused PINs stay as they are. -/
def SameRefused (before after : System) : Prop :=
  after.cache.negative = before.cache.negative

/-- Caches that refuse what they refused before, and nothing else. -/
abbrev Keeps (before after : PinStore) : Prop :=
  Grows SameRefused before after

theorem Keeps.refl (pins : PinStore) : Keeps pins pins :=
  ⟨fun _ _ h => h, fun _ system h => ⟨system, h, rfl⟩, id⟩

theorem Grows.trans {related}
    (hTrans : ∀ {first second third}, related first second → related second third →
      related first third) (first : Grows related before middle) (second : Grows related middle after) :
    Grows related before after where
  keys key ref h := second.keys key ref (first.keys key ref h)
  caches ref system h := by
    obtain ⟨later, hLater, hFirst⟩ := first.caches ref system h
    obtain ⟨last, hLast, hSecond⟩ := second.caches ref later hLater
    exact ⟨last, hLast, hTrans hFirst hSecond⟩
  sound h := second.sound (first.sound h)

theorem Keeps.trans (first : Keeps before middle) (second : Keeps middle after) :
    Keeps before after :=
  Grows.trans (fun hFirst hSecond => Eq.trans hSecond hFirst) first second

theorem grows_update {related} (hRefl : ∀ system, related system system)
    (pins : PinStore) (ref : CacheRef) {change}
    (hChange : ∀ system, related system (change system)) :
    Grows related pins (pins.update ref change) where
  keys _ _ h := h
  caches other system h := by
    rw [update, getElem?_modify, h]
    by_cases hRef : ref = other
    · exact ⟨change system, by simp [hRef], hChange system⟩
    · exact ⟨system, by simp [hRef], hRefl system⟩
  sound h := ⟨fun key other hKey => by
    rw [update, length_modify]
    exact h.bounded key other hKey, h.injective⟩

theorem keeps_clearPositive (pins : PinStore) (ref : CacheRef) :
    Keeps pins (pins.clearPositive ref) := by
  refine grows_update ?_ pins ref ?_
  · intro system
    rfl
  · intro system
    rfl

variable {key : String} {fingerprintKey : Option Bytes} {ref : CacheRef}

theorem obtain_key (h : pins.obtain key fingerprintKey = .ok (ref, after)) :
    after.processPinCaches.get? key = some ref := by
  unfold obtain at h
  split at h
  · rename_i known hKnown
    cases h
    exact hKnown
  · cases fingerprintKey with
    | none => cases h
    | some fingerprintKey =>
      cases h
      exact get?_insert_self _ _ _

theorem keeps_new (hNew : pins.processPinCaches.get? key = none) (system : System) : Keeps pins
      ⟨pins.processPinCaches.insert key pins.caches.length, pins.caches ++ [system]⟩ := by
  refine ⟨?_, fun other old hOld => ⟨old, ?_, rfl⟩, fun hSound => ⟨?_, ?_⟩⟩
  · intro other found hFound
    rw [get?_insert, if_neg, hFound]
    rintro rfl
    rw [hNew] at hFound
    cases hFound
  · rw [List.getElem?_append_left (List.getElem?_eq_some_iff.mp hOld).1, hOld]
  · intro other found hFound
    rw [get?_insert] at hFound
    rw [length_append, length_singleton]
    split at hFound
    · cases hFound
      exact lt_succ_self _
    · exact lt_succ_of_lt (hSound.bounded other found hFound)
  intro first second found hFirst hSecond
  rw [get?_insert] at hFirst hSecond
  -- The new cache has a number no earlier key has.
  split at hFirst <;> split at hSecond
  · rename_i hLeft hRight
    rw [hLeft, hRight]
  · cases hFirst
    exact absurd (hSound.bounded second _ hSecond) (lt_irrefl _)
  · cases hSecond
    exact absurd (hSound.bounded first _ hFirst) (lt_irrefl _)
  · exact hSound.injective first second found hFirst hSecond

theorem keeps_obtain (h : pins.obtain key fingerprintKey = .ok (ref, after)) :
    Keeps pins after := by
  unfold obtain at h
  split at h
  · cases h
    exact Keeps.refl pins
  rename_i hNew
  cases fingerprintKey with
  | none => cases h
  | some fingerprintKey =>
    cases h
    exact keeps_new hNew _

end PinStore

variable {Content : Type}

namespace Loaded
variable {module before middle after : Loaded Content}

section Table

/-- Slots are numbered from one in the order of their admission, and no two
are bound to one device. -/
structure Table (module : Loaded Content) : Prop where
  numbered : ∀ (position : Nat) (slot : SlotRecord),
    module.slots[position]? = some slot → slot.id = position + 1
  next : module.nextSlotId = module.slots.length + 1
  fits : module.slots.length ≤ isizeMax
  devices : (module.slots.map (·.kind.device)).Nodup

theorem Table.blank (pins : PinStore) : Table (⟨ModuleState.blank, pins⟩ : Loaded Content) where
  numbered position slot h := by simp [ModuleState.blank] at h
  next := rfl
  fits := zero_le _
  devices := nodup_nil

variable {slot : SlotRecord} {position : Nat}

theorem Table.slot_eq (h : Table module) (hSlot : module.slots[position]? = some slot) :
    module.slot slot.id = some slot := by
  obtain ⟨hIndex, hGet⟩ := List.getElem?_eq_some_iff.mp hSlot
  refine List.find?_eq_some_iff_getElem.mpr ⟨by simp, position, hIndex, hGet, ?_⟩
  intro earlier hEarlier
  have hId := h.numbered position slot hSlot
  have hOther := h.numbered earlier _ (List.getElem?_eq_getElem (hEarlier.trans hIndex))
  simp only [Bool.not_eq_true', decide_eq_false_iff_not]
  omega

theorem Table.position_inj (h : Table module) {first second : Nat} {other : SlotRecord}
    (hFirst : module.slots[first]? = some slot) (hSecond : module.slots[second]? = some other)
    (hDevice : slot.kind.device = other.kind.device) : first = second := by
  have hSame : (module.slots.map (·.kind.device))[first]? =
      (module.slots.map (·.kind.device))[second]? := by
    rw [List.getElem?_map, List.getElem?_map, hFirst, hSecond, map_some, map_some, hDevice]
  have hBound {position : Nat} {bound : SlotRecord} (hGet : module.slots[position]? = some bound) :
      position < (module.slots.map (·.kind.device)).length := by
    rw [length_map]
    exact (List.getElem?_eq_some_iff.mp hGet).1
  have hDistinct := nodup_iff_getElem?_ne_getElem?.mp h.devices
  rcases lt_trichotomy first second with hLt | hEq | hLt
  · exact absurd hSame (hDistinct first second hLt (hBound hSecond))
  · exact hEq
  · exact absurd hSame.symm (hDistinct second first hLt (hBound hFirst))

/-- A later table: every slot keeps its place, its number and its device. -/
structure Binds (before after : Loaded Content) : Prop where
  kept : ∀ (position : Nat) (slot : SlotRecord), before.slots[position]? = some slot →
    ∃ later, after.slots[position]? = some later ∧ later.id = slot.id ∧
      later.kind.device = slot.kind.device
  table : Table before → Table after

theorem Binds.refl (module : Loaded Content) : Binds module module :=
  ⟨fun _ slot h => ⟨slot, h, rfl, rfl⟩, id⟩

theorem Binds.trans (first : Binds before middle) (second : Binds middle after) :
    Binds before after where
  kept position slot h := by
    obtain ⟨slot', h', hId', hDevice'⟩ := first.kept position slot h
    obtain ⟨slot'', h'', hId'', hDevice''⟩ := second.kept position slot' h'
    exact ⟨slot'', h'', hId''.trans hId', hDevice''.trans hDevice'⟩
  table h := second.table (first.table h)

/-- An operation that leaves the table alone. -/
theorem Binds.of_slots_eq (hSlots : after.slots = before.slots)
    (hNext : after.nextSlotId = before.nextSlotId) : Binds before after where
  kept position slot h := ⟨slot, by rw [hSlots, h], rfl, rfl⟩
  table h := ⟨by rw [hSlots]; exact h.numbered, by rw [hSlots, hNext]; exact h.next,
    by rw [hSlots]; exact h.fits, by rw [hSlots]; exact h.devices⟩

/-- An operation that rewrites one slot but neither its number nor its
device. -/
theorem Binds.of_modify {change} (hSlots : after.slots = before.slots.modify position change)
    (hNext : after.nextSlotId = before.nextSlotId)
    (hChange : ∀ slot, before.slots[position]? = some slot →
      (change slot).id = slot.id ∧ (change slot).kind.device = slot.kind.device) :
    Binds before after := by
  have hKept : ∀ (index : Nat) (slot : SlotRecord), before.slots[index]? = some slot →
      ∃ later, after.slots[index]? = some later ∧ later.id = slot.id ∧
        later.kind.device = slot.kind.device := by
    intro index slot h
    rw [hSlots, List.getElem?_modify, h]
    by_cases hIndex : position = index
    · subst hIndex
      exact ⟨change slot, by simp, hChange slot h⟩
    · exact ⟨slot, by simp [hIndex], rfl, rfl⟩
  have hLength : after.slots.length = before.slots.length := by rw [hSlots, length_modify]
  have hDevices : after.slots.map (·.kind.device) = before.slots.map (·.kind.device) := by
    refine ext_getElem? fun index => ?_
    rw [List.getElem?_map, List.getElem?_map]
    cases h : before.slots[index]? with
    | none =>
      have hNone : after.slots[index]? = none := by
        rw [List.getElem?_eq_none_iff] at h ⊢
        omega
      rw [hNone]
    | some slot =>
      obtain ⟨later, hLater, -, hDevice⟩ := hKept index slot h
      rw [hLater, map_some, map_some, hDevice]
  refine ⟨hKept, fun h => ⟨?_, by rw [hNext, hLength, h.next], by rw [hLength]; exact h.fits,
    by rw [hDevices]; exact h.devices⟩⟩
  intro index later hLater
  have hIndex : index < before.slots.length := by
    rw [← hLength]
    exact (List.getElem?_eq_some_iff.mp hLater).1
  obtain ⟨other, hOther, hId, -⟩ := hKept index _ (List.getElem?_eq_getElem hIndex)
  rw [hLater] at hOther
  cases hOther
  rw [hId]
  exact h.numbered index _ (List.getElem?_eq_getElem hIndex)

theorem pushSlot_eq_some {slots next} :
    pushSlot slots slot = some next ↔ slots.length < isizeMax ∧ next = slots ++ [slot] := by
  unfold pushSlot
  split <;> simp_all [eq_comm]

theorem Binds.of_push (hSlots : pushSlot before.slots slot = some after.slots)
    (hNext : after.nextSlotId = saturatingSucc before.nextSlotId)
    (hId : slot.id = before.nextSlotId)
    (hNew : ∀ other ∈ before.slots, other.kind.device ≠ slot.kind.device) : Binds before after := by
  obtain ⟨hRoom, hSlots⟩ := pushSlot_eq_some.mp hSlots
  refine ⟨fun position other h => ⟨other, ?_, rfl, rfl⟩, fun h => ⟨?_, ?_, ?_, ?_⟩⟩
  · rw [hSlots, List.getElem?_append_left (List.getElem?_eq_some_iff.mp h).1, h]
  · intro position other hOther
    rw [hSlots] at hOther
    rcases getElem?_append_singleton.mp hOther with hOld | ⟨rfl, rfl⟩
    · exact h.numbered position other hOld
    · rw [hId, h.next]
  · rw [hNext, h.next, hSlots, saturatingSucc, length_append, length_singleton]
    refine min_eq_left ?_
    unfold isizeMax at hRoom
    unfold ulongMax
    omega
  · rw [hSlots, length_append, length_singleton]
    exact hRoom
  · rw [hSlots]
    exact nodup_map_snoc h.devices hNew

end Table

variable {sighting : Sighting Content} {enumeration : Except CkRv (List (Sighting Content))}
  {result : Except CkRv Unit} {remoteTokenObjects : RemoteTokenObjects Content}
  {offer : Option RemoteOffer}

/-- A property that every step inside a refresh keeps. -/
structure Closed (P : Loaded Content → Prop) : Prop where
  setCardPresent : ∀ {module} position present, P module → P (module.setCardPresent position present)
  invalidateSlot : ∀ {module} id, P module → P (module.invalidateSlot id)
  cacheToken : ∀ {module} id objects, P module → P (module.cacheToken id objects).2
  forgetReport : ∀ {module} id, P module → P (module.forgetReport id)
  clearAllPositivePins : ∀ {module}, P module → P module.clearAllPositivePins
  note : ∀ {module} id events, P module →
    P { module with cardEvents := module.cardEvents.insert id events }
  forgetLogin : ∀ {module} id, P module →
    P { module with remoteLoggedIn := module.remoteLoggedIn.filter (· ≠ id) }
  rename : ∀ {module} position slot (offer : RemoteOffer), module.slots[position]? = some slot →
    slot.kind.device = .pairing offer.pairId → P module →
    P { module with slots := module.slots.modify position fun slot =>
      { slot with kind := .remote offer.pairId offer.label offer.context } }
  push : ∀ {module slots} kind present,
    pushSlot module.slots ⟨module.nextSlotId, kind, present⟩ = some slots →
    (∀ slot ∈ module.slots, slot.kind.device ≠ kind.device) → P module →
    P { module with slots, nextSlotId := saturatingSucc module.nextSlotId }

namespace Closed
variable {P : Loaded Content → Prop} (hP : Closed P)
include hP

variable (id : CkSlotId)

theorem setCardPresentOf (present : Bool) (h : P module) :
    P (module.setCardPresentOf id present) := by
  unfold Loaded.setCardPresentOf
  cases module.slots.findIdx? (·.id = id) with
  | none => exact h
  | some position => exact hP.setCardPresent position present h

variable (position : Nat)

theorem followCard (id : CkSlotId) (wasPresent : Bool) (sighting : Sighting Content) (h : P module) :
    P (module.followCard position id wasPresent sighting) := by
  unfold Loaded.followCard
  dsimp only
  split
  · split
    · exact h
    · exact hP.cacheToken id _ (hP.invalidateSlot id (hP.setCardPresent position true h))
  · split
    · exact hP.invalidateSlot id (hP.setCardPresent position false h)
    · exact h

theorem dropMoved (id : CkSlotId) (h : P module) : P (module.dropMoved position id) :=
  hP.forgetReport id (hP.invalidateSlot id (hP.setCardPresent position false h))

theorem visitSlot (slot : SlotRecord) (sighting : Sighting Content) (h : P module) :
    P (module.visitSlot position slot sighting) := by
  have hNoted := hP.note slot.id sighting.reader.cardEvents h
  unfold Loaded.visitSlot
  dsimp only
  split
  · exact hP.followCard _ _ _ _ (hP.dropMoved position slot.id hNoted)
  · exact hP.followCard _ _ _ _ hNoted

theorem admitReader (hNew : ∀ slot ∈ before.slots, slot.kind.localReader ≠ some sighting.reader.id)
    (hAdmit : before.admitReader sighting = some after) (h : P before) : P after := by
  unfold Loaded.admitReader at hAdmit
  split at hAdmit
  · split at hAdmit
    · cases hAdmit
      exact h
    simp only [bind_eq_bind, bind_eq_some_iff] at hAdmit
    obtain ⟨slots, hSlots, hAfter⟩ := hAdmit
    cases hAfter
    refine hP.cacheToken _ _ (hP.note _ _ (hP.push _ _ hSlots ?_ h))
    intro slot hSlot hDevice
    exact hNew slot hSlot (localReader_eq_some.mpr hDevice)
  · cases hAdmit
    exact h

theorem visit (hVisit : before.visit sighting = some after) (h : P before) : P after := by
  unfold Loaded.visit at hVisit
  split at hVisit
  · cases hVisit
    exact h
  split at hVisit
  · rename_i hNone
    refine hP.admitReader ?_ hVisit h
    intro slot hSlot
    simpa using findIdx?_eq_none_iff.mp hNone slot hSlot
  · split at hVisit
    · cases hVisit
      exact h
    · cases hVisit
      exact hP.visitSlot _ _ sighting h

theorem visits {sightings : List (Sighting Content)}
    (hVisits : sightings.foldlM Loaded.visit before = some after) (h : P before) : P after := by
  induction sightings generalizing before with
  | nil =>
    cases hVisits
    exact h
  | cons sighting rest ih =>
    rw [foldlM_cons, bind_eq_bind, bind_eq_some_iff] at hVisits
    obtain ⟨next, hNext, hRest⟩ := hVisits
    exact ih hRest (hP.visit hNext h)

theorem refreshSlotsWith (hRefresh : before.refreshSlotsWith enumeration = some (result, after))
    (h : P before) : P after := by
  cases enumeration with
  | error error =>
    cases hRefresh
    exact hP.clearAllPositivePins h
  | ok sightings =>
    obtain ⟨next, hNext, hEq⟩ := map_eq_some_iff.mp hRefresh
    cases hEq
    exact hP.visits hNext h

theorem withdrawToken (h : P module) : P (module.withdrawToken id) :=
  hP.invalidateSlot id (hP.forgetLogin id (hP.setCardPresentOf id false h))

theorem withdrawTokens (ids : List CkSlotId) (h : P module) :
    P (ids.foldl Loaded.withdrawToken module) := by
  induction ids generalizing module with
  | nil => exact h
  | cons id rest ih => exact ih (hP.withdrawToken id h)

theorem remoteSlotFor {offer : RemoteOffer} {id : CkSlotId}
    (hSlot : before.remoteSlotFor offer = some (id, after)) (h : P before) : P after := by
  unfold Loaded.remoteSlotFor at hSlot
  split at hSlot
  · rename_i position hPosition
    simp only [bind_eq_bind, bind_eq_some_iff] at hSlot
    obtain ⟨slot, hGet, hAfter⟩ := hSlot
    cases hAfter
    obtain ⟨hIndex, hPair, -⟩ := findIdx?_eq_some_iff_getElem.mp hPosition
    have hHere : before.slots[position] = slot := by
      rw [getElem?_eq_getElem hIndex] at hGet
      exact Option.some.inj hGet
    rw [decide_eq_true_eq, hHere, remotePairId_eq_some] at hPair
    exact hP.rename position slot offer hGet hPair h
  rename_i hNone
  simp only [bind_eq_bind, bind_eq_some_iff] at hSlot
  obtain ⟨slots, hSlots, hAfter⟩ := hSlot
  cases hAfter
  refine hP.push _ _ hSlots ?_ h
  intro slot hSlot hDevice
  have hOther := findIdx?_eq_none_iff.mp hNone slot hSlot
  rw [decide_eq_false_iff_not] at hOther
  exact hOther (remotePairId_eq_some.mpr hDevice)

theorem followOffer (objects : Option (TokenObjects Content)) (h : P module) :
    P (module.followOffer id objects) := by
  unfold Loaded.followOffer
  split
  · exact hP.withdrawToken id h
  split
  · exact h
  · exact hP.forgetReport id
      (hP.setCardPresentOf id true (hP.cacheToken id _ (hP.withdrawToken id h)))

theorem refreshRemoteSlotsWith
    (hRefresh : before.refreshRemoteSlotsWith remoteTokenObjects offer = some after) (h : P before) :
    P after := by
  unfold Loaded.refreshRemoteSlotsWith at hRefresh
  have hWithdrawn := hP.withdrawTokens (before.unnamed offer) h
  cases offer with
  | none =>
    cases hRefresh
    exact hWithdrawn
  | some offer =>
    simp only [bind_eq_bind, bind_eq_some_iff] at hRefresh
    obtain ⟨⟨id, named⟩, hNamed, hAfter⟩ := hRefresh
    cases hAfter
    exact hP.followOffer id _ (hP.remoteSlotFor hNamed hWithdrawn)

end Closed

variable (module : Loaded Content)

def Owned : Prop :=
  ∀ id ref, module.pinCaches.get? id = some ref → ∃ slot ∈ module.slots, slot.id = id ∧
      module.pins.processPinCaches.get? slot.kind.device.cacheKey = some ref

/-- What every operation does to the table and to the caches. -/
structure Advances (before after : Loaded Content) : Prop where
  binds : Binds before after
  keeps : PinStore.Keeps before.pins after.pins
  owned : Owned before → Owned after

open PinStore.Keeps

theorem Advances.refl (module : Loaded Content) : Advances module module :=
  ⟨.refl module, PinStore.Keeps.refl module.pins, id⟩

theorem Advances.trans (first : Advances before middle) (second : Advances middle after) :
    Advances before after :=
  ⟨first.binds.trans second.binds, first.keeps.trans second.keeps,
    fun h => second.owned (first.owned h)⟩

theorem Advances.of_pinCaches_eq (hBinds : Binds before after)
    (hKeeps : PinStore.Keeps before.pins after.pins)
    (hCaches : after.pinCaches = before.pinCaches) : Advances before after where
  binds := hBinds
  keeps := hKeeps
  owned h id ref hRef := by
    rw [hCaches] at hRef
    obtain ⟨slot, hSlot, rfl, hKey⟩ := h id ref hRef
    obtain ⟨position, hPosition⟩ := mem_iff_getElem?.mp hSlot
    obtain ⟨later, hLater, hId, hDevice⟩ := hBinds.kept position slot hPosition
    refine ⟨later, mem_iff_getElem?.mpr ⟨position, hLater⟩, hId, ?_⟩
    rw [hDevice]
    exact hKeeps.keys _ _ hKey

/-- An operation that only touches what is kept beside the table. -/
theorem Advances.of_beside (hSlots : after.slots = before.slots)
    (hNext : after.nextSlotId = before.nextSlotId) (hPins : after.pins = before.pins)
    (hCaches : after.pinCaches = before.pinCaches) : Advances before after :=
  .of_pinCaches_eq (.of_slots_eq hSlots hNext) (by rw [hPins]; exact PinStore.Keeps.refl _) hCaches

/-- The same before another operation. -/
theorem Advances.after_beside (h : Advances middle after)
    (hSlots : middle.slots = before.slots) (hNext : middle.nextSlotId = before.nextSlotId)
    (hPins : middle.pins = before.pins) (hCaches : middle.pinCaches = before.pinCaches) :
    Advances before after :=
  (Advances.of_beside hSlots hNext hPins hCaches).trans h

theorem setCardPresent_advances (position : Nat) (present : Bool) :
    Advances module (module.setCardPresent position present) :=
  .of_pinCaches_eq (.of_modify rfl rfl fun _ _ => ⟨rfl, rfl⟩) (refl _) rfl

variable (id : CkSlotId)

theorem clearPin_advances : Advances module (module.clearPin id) := by
  refine .of_pinCaches_eq (.of_slots_eq rfl rfl) ?_ rfl
  unfold clearPin
  cases module.pinCaches.get? id with
  | none => exact refl _
  | some ref => exact keeps_clearPositive _ ref

theorem invalidateSlot_advances : Advances module (module.invalidateSlot id) :=
  (clearPin_advances { module with tokenCache := module.tokenCache.erase id } id).after_beside
    rfl rfl rfl rfl

theorem clearAllPositivePins_advances : Advances module module.clearAllPositivePins := by
  refine .of_pinCaches_eq (.of_slots_eq rfl rfl) ?_ rfl
  unfold clearAllPositivePins
  generalize module.pinCaches.entries = entries
  induction entries using reverseRecOn with
  | nil => exact refl _
  | append_singleton entries entry ih =>
    rw [foldl_append]
    exact ih.trans (keeps_clearPositive _ _)

theorem advances_closed (before : Loaded Content) : Closed (Advances before) where
  setCardPresent position present h := h.trans (setCardPresent_advances _ position present)
  invalidateSlot id h := h.trans (invalidateSlot_advances _ id)
  cacheToken _ _ h := h.trans (.of_beside rfl rfl rfl rfl)
  forgetReport _ h := h.trans (.of_beside rfl rfl rfl rfl)
  clearAllPositivePins h := h.trans (clearAllPositivePins_advances _)
  note _ _ h := h.trans (.of_beside rfl rfl rfl rfl)
  forgetLogin _ h := h.trans (.of_beside rfl rfl rfl rfl)
  rename position slot offer hSlot hDevice h := by
    refine h.trans (.of_pinCaches_eq (.of_modify rfl rfl ?_) (refl _) rfl)
    intro other hOther
    rw [hSlot] at hOther
    cases hOther
    exact ⟨rfl, hDevice.symm⟩
  push kind present hSlots hNew h :=
    h.trans (.of_pinCaches_eq (.of_push hSlots rfl rfl hNew) (refl _) rfl)

theorem visit_advances (h : before.visit sighting = some after) : Advances before after :=
  (advances_closed before).visit h (.refl before)

theorem refreshSlotsWith_advances (h : before.refreshSlotsWith enumeration = some (result, after)) :
    Advances before after :=
  (advances_closed before).refreshSlotsWith h (.refl before)

theorem refreshRemoteSlotsWith_advances
    (h : before.refreshRemoteSlotsWith remoteTokenObjects offer = some after) :
    Advances before after :=
  (advances_closed before).refreshRemoteSlotsWith h (.refl before)

theorem logout_advances : Advances module (module.logout id) :=
  (clearPin_advances { module with remoteLoggedIn := module.remoteLoggedIn.filter (· ≠ id) }
    id).after_beside rfl rfl rfl rfl

/-- A slot gets the cache of its device, now and at every later question. -/
theorem pinCache_advances
    (fingerprintKey : Option Bytes) : Advances module (module.pinCache id fingerprintKey).2 := by
  unfold pinCache
  split
  · exact .refl module
  split
  · exact .refl module
  rename_i kind hKind
  split
  · exact .refl module
  rename_i ref pins hPins
  have hKeeps : PinStore.Keeps module.pins pins := keeps_obtain hPins
  refine ⟨.of_slots_eq rfl rfl, hKeeps, fun hOwned other found hFound => ?_⟩
  rw [get?_insert] at hFound
  split at hFound
  · rename_i hId
    cases hFound
    obtain ⟨slot, hSlot, rfl⟩ := map_eq_some_iff.mp hKind
    refine ⟨slot, mem_of_find?_eq_some hSlot, ?_, ?_⟩
    · rw [hId]
      simpa using find?_some hSlot
    · rw [← cacheKey_eq_device]
      exact obtain_key hPins
  · obtain ⟨slot, hSlot, hId, hOther⟩ := hOwned other found hFound
    exact ⟨slot, hSlot, hId, hKeeps.keys _ _ hOther⟩

theorem ensureToken_advances (build : Except CkRv (TokenObjects Content)) :
    Advances module (module.ensureToken id build).2 := by
  unfold ensureToken
  split
  · exact .refl module
  split
  · exact .refl module
  split
  · exact .refl module
  split
  · exact .refl module
  · exact .of_beside rfl rfl rfl rfl

theorem closeSession_advances (handle : CkSessionHandle) :
    Advances module (module.closeSession handle).2 := by
  unfold closeSession
  split
  · exact .refl module
  unfold forgetLoginIfNoSessions
  split
  · exact .of_beside rfl rfl rfl rfl
  · exact (logout_advances _ _).after_beside rfl rfl rfl rfl

theorem step_advances {call reply} (h : before.step call = some (reply, after)) :
    Advances before after := by
  cases call with
  | refreshSlots enumeration =>
    simp only [step, bind_eq_bind, bind_eq_some_iff] at h
    obtain ⟨⟨result, next⟩, hNext, hEq⟩ := h
    cases hEq
    exact refreshSlotsWith_advances hNext
  | refreshRemoteSlots remoteTokenObjects offer =>
    simp only [step, bind_eq_bind, bind_eq_some_iff] at h
    obtain ⟨next, hNext, hEq⟩ := h
    cases hEq
    exact refreshRemoteSlotsWith_advances hNext
  | takeSlotEvent =>
    cases h
    split
    · exact .refl before
    · exact .of_beside rfl rfl rfl rfl
  | ensureToken id build =>
    cases h
    exact ensureToken_advances before id build
  | pinCache id fingerprintKey =>
    cases h
    exact pinCache_advances before id fingerprintKey
  | openSession id =>
    cases h
    exact .of_beside rfl rfl rfl rfl
  | closeSession handle =>
    cases h
    exact closeSession_advances before handle
  | closeAllSessions id =>
    cases h
    exact (logout_advances { before with
      sessions := .ofList (before.sessions.entries.filter (·.2 ≠ id)) } id).after_beside
      rfl rfl rfl rfl
  | setRemoteLoggedIn id loggedIn =>
    cases h
    exact .of_beside rfl rfl rfl rfl
  | logout id =>
    cases h
    exact logout_advances before id

end Loaded

end RefineId.Pkcs11
