import RefineId.Pkcs11.SlotTable

/-! One slot of the table with everything kept for it, and what a refresh does
to it. A local slot moves only at sightings of its own reader, so a whole
refresh is a run of one small automaton per slot. -/
namespace RefineId.Pkcs11

open Data Semantics List Option SlotKind BTreeMap

variable {Content : Type}

/-- Everything the module keeps for one slot, its PIN cache apart. -/
structure SlotView (Content : Type) where
  kind : SlotKind
  cardPresent : Bool
  token : Option (TokenObjects Content)
  reported : Option Bool
  cardEvents : Option UInt32

/-- A sighting that tells something of the slot's reader. -/
def Sighting.Concerns (sighting : Sighting Content) (kind : SlotKind) : Prop :=
  sighting.observation.preservesLastKnownState = false ∧ kind.localReader = some sighting.reader.id

instance (sighting : Sighting Content) (kind : SlotKind) : Decidable (sighting.Concerns kind) :=
  inferInstanceAs (Decidable (_ ∧ _))

def Sighting.Raises (sighting : Sighting Content) : Prop :=
  sighting.observation = .present ∧ ∃ objects, sighting.buildObjects = .ok objects

namespace SlotView

variable (view : SlotView Content)

def lower : SlotView Content :=
  { view with cardPresent := false, token := none }

variable (generation : Nat)

def raise (objects : TokenObjects Content) (view : SlotView Content) : SlotView Content :=
  { view with cardPresent := true, token := some { objects with generation } }

def forget : SlotView Content :=
  { view with reported := view.reported.map fun _ => false }

def note (cardEvents : UInt32) (view : SlotView Content) : SlotView Content :=
  { view with cardEvents := some cardEvents }

def follow (wasPresent : Bool) (sighting : Sighting Content)
    (view : SlotView Content) : SlotView Content :=
  let aidPresent : Bool := sighting.observation = .present
  if aidPresent && !wasPresent then
    match sighting.buildObjects with
    | .error _ => view
    | .ok objects => view.raise generation objects
  else if wasPresent && !aidPresent then view.lower
  else view

variable (sighting : Sighting Content)

/-- The reader's count changed since it was last noted. -/
def Moved : Bool :=
  view.cardEvents.any (· ≠ sighting.reader.cardEvents)

def visit (view : SlotView Content) : SlotView Content :=
  if sighting.Concerns view.kind then
    let noted := view.note sighting.reader.cardEvents
    if view.Moved sighting && view.cardPresent then
      noted.lower.forget.follow generation false sighting
    else noted.follow generation view.cardPresent sighting
  else view

/-- A sighting that ends the stay of the slot's token or raises another. -/
def Touched : Prop :=
  sighting.Concerns view.kind ∧
    (view.cardPresent = true ∧ (view.Moved sighting = true ∨ sighting.observation ≠ .present) ∨
      view.cardPresent = false ∧ sighting.Raises)

@[simp] theorem follow_kind (wasPresent : Bool) (sighting : Sighting Content)
    (view : SlotView Content) : (view.follow generation wasPresent sighting).kind = view.kind := by
  unfold follow
  dsimp only
  split
  · split <;> rfl
  · split <;> rfl

@[simp] theorem visit_kind
    (view : SlotView Content) : (view.visit generation sighting).kind = view.kind := by
  unfold visit
  split
  · split <;> simp [note, lower, forget]
  · rfl

end SlotView

def PinStore.held (pins : PinStore) (ref : CacheRef) : Option CachedPin1 :=
  (pins.caches[ref]?).bind (·.cache.positivePin1)

namespace Loaded
variable {module before middle after : Loaded Content}

def view (module : Loaded Content) (position : Nat) : Option (SlotView Content) :=
  module.slots[position]?.map fun slot =>
    ⟨slot.kind, slot.cardPresent, module.tokenCache.get? slot.id,
      module.eventReported.get? slot.id, module.cardEvents.get? slot.id⟩

variable {position : Nat} {slot : SlotRecord}

theorem view_of_slot (h : module.slots[position]? = some slot) :
    module.view position = some ⟨slot.kind, slot.cardPresent, module.tokenCache.get? slot.id,
      module.eventReported.get? slot.id, module.cardEvents.get? slot.id⟩ := by
  rw [view, h, map_some]

variable {slotView : SlotView Content}

theorem view_eq_some (h : module.view position = some slotView) :
    ∃ slot, module.slots[position]? = some slot ∧ slotView =
      ⟨slot.kind, slot.cardPresent, module.tokenCache.get? slot.id,
        module.eventReported.get? slot.id, module.cardEvents.get? slot.id⟩ := by
  obtain ⟨slot, hSlot, hView⟩ := map_eq_some_iff.mp h
  exact ⟨slot, hSlot, hView.symm⟩

/-- An operation on the slot at one place. -/
def Rewrites (position : Nat) (change : SlotView Content → SlotView Content)
    (before after : Loaded Content) : Prop :=
  ∀ index slotView, before.view index = some slotView →
    after.view index = some (if position = index then change slotView else slotView)

theorem Rewrites.trans {first second} (hFirst : Rewrites position first before middle)
    (hSecond : Rewrites position second middle after) :
    Rewrites position (fun slotView => second (first slotView)) before after := by
  intro index slotView hView
  rw [hSecond index _ (hFirst index slotView hView)]
  split <;> rfl

variable {sighting : Sighting Content} {index : Nat}

theorem setCardPresent_rewrites (module : Loaded Content) (position : Nat) (present : Bool) :
    Rewrites position (fun slotView => { slotView with cardPresent := present }) module
      (module.setCardPresent position present) := by
  intro index slotView hView
  obtain ⟨slot, hSlot, rfl⟩ := view_eq_some hView
  have hLater : (module.setCardPresent position present).slots[index]? =
      some (if position = index then { slot with cardPresent := present } else slot) := by
    rw [setCardPresent, getElem?_modify, hSlot]
    rfl
  rw [view_of_slot hLater]
  split <;> rfl

/-- An operation on one map, seen through the table. -/
theorem Rewrites.of_maps {change} (hTable : Table before) (hSlots : after.slots = before.slots)
    (hHere : ∀ slot, before.slots[position]? = some slot →
      (⟨slot.kind, slot.cardPresent, after.tokenCache.get? (position + 1),
        after.eventReported.get? (position + 1), after.cardEvents.get? (position + 1)⟩ :
          SlotView Content) =
      change ⟨slot.kind, slot.cardPresent, before.tokenCache.get? (position + 1),
        before.eventReported.get? (position + 1), before.cardEvents.get? (position + 1)⟩)
    (hElse : ∀ id, id ≠ position + 1 → after.tokenCache.get? id = before.tokenCache.get? id ∧
      after.eventReported.get? id = before.eventReported.get? id ∧
      after.cardEvents.get? id = before.cardEvents.get? id) :
    Rewrites position change before after := by
  intro index slotView hView
  obtain ⟨slot, hSlot, rfl⟩ := view_eq_some hView
  have hId := hTable.numbered index slot hSlot
  rw [view_of_slot (by rw [hSlots, hSlot])]
  by_cases hIndex : position = index
  · subst hIndex
    rw [if_pos rfl, hId, hHere slot hSlot]
  · have hOther : slot.id ≠ position + 1 := by omega
    obtain ⟨hToken, hReported, hEvents⟩ := hElse slot.id hOther
    rw [if_neg hIndex, hToken, hReported, hEvents]

section
variable (hTable : Table module)
include hTable

theorem invalidateSlot_rewrites (position : Nat) :
    Rewrites position (fun slotView => { slotView with token := none }) module
      (module.invalidateSlot (position + 1)) := by
  refine .of_maps hTable rfl ?_ ?_
  · intro slot _
    simp [invalidateSlot, clearPin, get?_erase]
  · intro id hId
    simp [invalidateSlot, clearPin, get?_erase, hId]

theorem cacheToken_rewrites (position : Nat) (objects : TokenObjects Content) :
    Rewrites position (fun slotView =>
        { slotView with token := some { objects with generation := module.nextTokenGeneration } })
      module (module.cacheToken (position + 1) objects).2 := by
  refine .of_maps hTable rfl ?_ ?_
  · intro slot _
    simp [cacheToken]
  · intro id hId
    simp [cacheToken, get?_insert, hId]

open SlotView

theorem forgetReport_rewrites (position : Nat) :
    Rewrites position forget module (module.forgetReport (position + 1)) := by
  refine .of_maps hTable rfl ?_ ?_
  · intro slot _
    rw [forgetReport, contains_eq_isSome]
    cases hReported : module.eventReported.get? (position + 1) with
    | none => simp [forget, hReported]
    | some reported => simp [forget]
  · intro id hId
    rw [forgetReport]
    split <;> simp [get?_insert, hId]

theorem noteEvents_rewrites (position : Nat) (cardEvents : UInt32) :
    Rewrites position (note cardEvents) module
      { module with cardEvents := module.cardEvents.insert (position + 1) cardEvents } := by
  refine .of_maps hTable rfl ?_ ?_
  · intro slot _
    simp [note]
  · intro id hId
    simp [get?_insert, hId]

/-- A slot without its token. -/
theorem lower_rewrites (position : Nat) : Rewrites position lower module
      ((module.setCardPresent position false).invalidateSlot (position + 1)) :=
  (setCardPresent_rewrites module position false).trans
    (invalidateSlot_rewrites ((setCardPresent_advances module position false).binds.table hTable)
      position)

theorem followCard_rewrites (position : Nat) (wasPresent : Bool) (sighting : Sighting Content) :
    Rewrites position (follow module.nextTokenGeneration wasPresent sighting) module
      (module.followCard position (position + 1) wasPresent sighting) := by
  have hSame {change : SlotView Content → SlotView Content} (h : ∀ slotView, change slotView = slotView) :
      Rewrites position change module module := by
    intro index slotView hView
    rw [hView, h, ite_self]
  unfold followCard follow
  dsimp only
  split
  · cases sighting.buildObjects with
    | error error => exact hSame fun _ => rfl
    | ok objects =>
      have hPresent := (setCardPresent_advances module position true).binds.table hTable
      have hInvalid := (invalidateSlot_advances (module.setCardPresent position true)
        (position + 1)).binds.table hPresent
      exact ((setCardPresent_rewrites module position true).trans
        (invalidateSlot_rewrites hPresent position)).trans
        (cacheToken_rewrites hInvalid position objects)
  · split
    · exact lower_rewrites hTable position
    · exact hSame fun _ => rfl

theorem visitSlot_view (hSlot : module.slots[position]? = some slot)
    (hConcerns : sighting.Concerns slot.kind) (hView : module.view index = some slotView) :
    (module.visitSlot position slot sighting).view index =
      some (if position = index then slotView.visit module.nextTokenGeneration sighting
        else slotView) := by
  have hId := hTable.numbered position slot hSlot
  have hNoted : Table { module with
      cardEvents := module.cardEvents.insert (position + 1) sighting.reader.cardEvents } :=
    ⟨hTable.numbered, hTable.next, hTable.fits, hTable.devices⟩
  have hNote := noteEvents_rewrites hTable position sighting.reader.cardEvents
  unfold visitSlot
  dsimp only
  rw [hId]
  -- The branch is the one the slot's own view takes.
  have hHere : position = index → slotView.kind = slot.kind ∧
      slotView.cardPresent = slot.cardPresent ∧
      slotView.cardEvents = module.cardEvents.get? (position + 1) := by
    rintro rfl
    rw [view_of_slot hSlot, hId] at hView
    cases hView
    exact ⟨rfl, rfl, rfl⟩
  split
  · rename_i hMoved
    have hDropped := (lower_rewrites hNoted position).trans (forgetReport_rewrites
      (((setCardPresent_advances _ position false).trans
        (invalidateSlot_advances _ _)).binds.table hNoted) position)
    have hFollow := followCard_rewrites
      (((advances_closed _).dropMoved position (position + 1) (.refl _)).binds.table hNoted) position false sighting
    rw [(hNote.trans hDropped).trans hFollow index slotView hView]
    split
    · rename_i hIndex
      obtain ⟨hKind, hPresent, hEvents⟩ := hHere hIndex
      rw [SlotView.visit, if_pos (by rw [hKind]; exact hConcerns), Moved, hEvents, hPresent]
      rw [if_pos hMoved]
      rfl
    · rfl
  rename_i hStill
  have hFollow := followCard_rewrites hNoted position slot.cardPresent sighting
  rw [hNote.trans hFollow index slotView hView]
  split
  · rename_i hIndex
    obtain ⟨hKind, hPresent, hEvents⟩ := hHere hIndex
    rw [SlotView.visit, if_pos (by rw [hKind]; exact hConcerns), Moved, hEvents, hPresent]
    rw [if_neg hStill]
  · rfl

end

theorem SlotView.visit_of_not_concerns {generation} (h : ¬sighting.Concerns slotView.kind) :
    slotView.visit generation sighting = slotView := by
  rw [SlotView.visit, if_neg h]

/-- The view at `index` is that of a slot added for a raised card. -/
def Appears (before : Loaded Content) (sighting : Sighting Content) (index : Nat)
    (slotView : SlotView Content) : Prop :=
  index = before.slots.length ∧ sighting.observation = .present ∧
    ∃ objects, sighting.buildObjects = .ok objects ∧ slotView = ⟨.atReader sighting.reader.id, true,
        some { objects with generation := before.nextTokenGeneration },
        before.eventReported.get? (index + 1), some sighting.reader.cardEvents⟩

/-- What an admission adds, and that it adds nothing else. -/
theorem admitReader_view (hTable : Table before) (h : before.admitReader sighting = some after) :
    (∀ index slotView, before.view index = some slotView → after.view index = some slotView) ∧
    ∀ index slotView, before.view index = none → after.view index = some slotView →
      before.Appears sighting index slotView := by
  by_cases hSame : before = after
  · subst hSame
    exact ⟨fun _ _ hView => hView, fun _ _ hNone hSome => nomatch hNone.symm.trans hSome⟩
  unfold admitReader at h
  split at h
  · rename_i hPresent
    split at h
    · exact absurd (some.inj h) hSame
    rename_i objects hObjects
    simp only [bind_eq_bind, bind_eq_some_iff] at h
    obtain ⟨slots, hSlots, hAfter⟩ := h
    obtain ⟨-, rfl⟩ := pushSlot_eq_some.mp hSlots
    cases hAfter
    constructor
    · intro index slotView hView
      obtain ⟨slot, hSlot, rfl⟩ := view_eq_some hView
      have hId := hTable.numbered index slot hSlot
      have hIndex := (List.getElem?_eq_some_iff.mp hSlot).1
      have hOther : slot.id ≠ before.nextSlotId := by
        rw [hId, hTable.next]
        omega
      have hLater : (before.slots ++ [⟨before.nextSlotId, .atReader sighting.reader.id, true⟩] :
          List SlotRecord)[index]? = some slot := by
        rw [List.getElem?_append_left hIndex, hSlot]
      rw [view, cacheToken, hLater]
      simp [get?_insert, hOther]
    intro index slotView hNone hSome
    have hPast : before.slots.length ≤ index := by
      rw [view, map_eq_none_iff, List.getElem?_eq_none_iff] at hNone
      exact hNone
    obtain ⟨slot, hSlot, rfl⟩ := view_eq_some hSome
    rcases getElem?_append_singleton.mp hSlot with hOld | ⟨rfl, rfl⟩
    · exact absurd (List.getElem?_eq_some_iff.mp hOld).1 (by omega)
    · refine ⟨rfl, hPresent, objects, hObjects, ?_⟩
      simp [cacheToken, hTable.next]
  · exact absurd (some.inj h) hSame

theorem visit_view (hTable : Table before) (h : before.visit sighting = some after)
    (hView : before.view index = some slotView) :
    after.view index = some (slotView.visit before.nextTokenGeneration sighting) := by
  obtain ⟨slot, hSlot, hEq⟩ := view_eq_some hView
  have hKind : slotView.kind = slot.kind := by rw [hEq]
  unfold visit at h
  split at h
  · rename_i hKeeps
    cases h
    rw [hView, SlotView.visit_of_not_concerns]
    rintro ⟨hDefinite, -⟩
    rw [hKeeps] at hDefinite
    cases hDefinite
  rename_i hKeeps
  split at h
  · rename_i hNone
    rw [(admitReader_view hTable h).1 index slotView hView, SlotView.visit_of_not_concerns]
    rintro ⟨-, hReader⟩
    have hOther := findIdx?_eq_none_iff.mp hNone slot (mem_of_getElem? hSlot)
    rw [decide_eq_false_iff_not, ← hKind] at hOther
    exact hOther hReader
  rename_i position hPosition
  obtain ⟨hLt, hReader, -⟩ := findIdx?_eq_some_iff_getElem.mp hPosition
  rw [decide_eq_true_eq] at hReader
  rw [getElem?_eq_getElem hLt] at h
  cases h
  have hHere := getElem?_eq_getElem hLt
  rw [visitSlot_view hTable hHere ⟨by simpa using hKeeps, hReader⟩ hView]
  split
  · rfl
  rename_i hElse
  rw [SlotView.visit_of_not_concerns]
  rintro ⟨-, hSame⟩
  rw [hKind, localReader_eq_some] at hSame
  rw [localReader_eq_some] at hReader
  exact hElse (hTable.position_inj hHere hSlot (hReader.trans hSame.symm))

theorem floor_closed (floor : Nat) :
    Closed fun module : Loaded Content => floor ≤ module.nextTokenGeneration where
  setCardPresent _ _ h := h
  invalidateSlot _ h := h
  cacheToken _ _ h := Nat.le_succ_of_le h
  forgetReport _ h := h
  clearAllPositivePins h := h
  note _ _ h := h
  forgetLogin _ h := h
  rename _ _ _ _ _ h := h
  push _ _ _ _ h := h

theorem visit_new (hTable : Table before) (h : before.visit sighting = some after)
    (hNone : before.view index = none) (hView : after.view index = some slotView) :
    before.Appears sighting index slotView := by
  have hPast : before.slots[index]? = none := by
    rw [view, map_eq_none_iff] at hNone
    exact hNone
  unfold visit at h
  split at h
  · cases h
    rw [hNone] at hView
    cases hView
  split at h
  · exact (admitReader_view hTable h).2 index slotView hNone hView
  split at h
  · cases h
    rw [hNone] at hView
    cases hView
  cases h
  -- A visit to a known slot leaves the length of the table.
  obtain ⟨slot, hSlot, -⟩ := view_eq_some hView
  have hLength : ∀ position slot, (before.visitSlot position slot sighting).slots.length =
      before.slots.length := by
    intro position slot
    unfold visitSlot followCard
    dsimp only
    split
    · split
      · split <;> simp [dropMoved, setCardPresent, invalidateSlot, clearPin, forgetReport,
          cacheToken]
      · split <;> simp [dropMoved, setCardPresent, invalidateSlot, clearPin, forgetReport]
    · split
      · split <;> simp [setCardPresent, invalidateSlot, clearPin, cacheToken]
      · split <;> simp [setCardPresent, invalidateSlot, clearPin]
  have hLt := (List.getElem?_eq_some_iff.mp hSlot).1
  rw [hLength] at hLt
  rw [List.getElem?_eq_none_iff] at hPast
  omega

section Pins

theorem clearPositive_held (pins : PinStore) (ref found : CacheRef) :
    (pins.clearPositive ref).held found = if ref = found then none else pins.held found := by
  simp only [PinStore.held, PinStore.clearPositive, PinStore.update, getElem?_modify]
  cases pins.caches[found]? with
  | none => simp
  | some system => by_cases h : ref = found <;> simp [h, PinSafetyCache.clearPositive]

def heldPin (module : Loaded Content) (id : CkSlotId) : Option CachedPin1 :=
  (module.pinCaches.get? id).bind module.pins.held

/-- No slot gets a PIN1. -/
def Lowers (before after : Loaded Content) : Prop :=
  ∀ id entry, after.heldPin id = some entry → before.heldPin id = some entry

theorem clearPin_heldPin (module : Loaded Content) (id : CkSlotId) :
    (module.clearPin id).heldPin id = none := by
  unfold clearPin heldPin
  cases hRef : module.pinCaches.get? id with
  | none => rfl
  | some ref => simp [clearPositive_held]

theorem clearPin_lowers (module : Loaded Content) (id : CkSlotId) :
    Lowers module (module.clearPin id) := by
  intro other entry h
  unfold clearPin heldPin at h
  obtain ⟨found, hFound, hEntry⟩ := bind_eq_some_iff.mp h
  refine bind_eq_some_iff.mpr ⟨found, hFound, ?_⟩
  split at hEntry
  · exact hEntry
  rw [clearPositive_held] at hEntry
  split_ifs at hEntry
  exact hEntry

theorem clearAllPositivePins_lowers (module : Loaded Content) :
    Lowers module module.clearAllPositivePins := by
  intro other entry h
  obtain ⟨found, hFound, hEntry⟩ := bind_eq_some_iff.mp h
  refine bind_eq_some_iff.mpr ⟨found, hFound, ?_⟩
  unfold clearAllPositivePins at hEntry
  generalize module.pinCaches.entries = entries at hEntry
  induction entries using reverseRecOn with
  | nil => exact hEntry
  | append_singleton entries last ih =>
    rw [foldl_append, foldl_cons, foldl_nil, clearPositive_held] at hEntry
    split_ifs at hEntry
    exact ih hEntry

theorem lowers_closed (before : Loaded Content) : Closed (Lowers before) where
  setCardPresent _ _ h := h
  invalidateSlot id h other entry hEntry := h other entry (clearPin_lowers _ id other entry hEntry)
  cacheToken _ _ h := h
  forgetReport _ h := h
  clearAllPositivePins h other entry hEntry :=
    h other entry (clearAllPositivePins_lowers _ other entry hEntry)
  note _ _ h := h
  forgetLogin _ h := h
  rename _ _ _ _ _ h := h
  push _ _ _ _ h := h

theorem invalidateSlot_heldPin (module : Loaded Content) (id : CkSlotId) :
    (module.invalidateSlot id).heldPin id = none :=
  clearPin_heldPin _ id

theorem dropMoved_heldPin (module : Loaded Content) (position : Nat) (id : CkSlotId) :
    (module.dropMoved position id).heldPin id = none :=
  invalidateSlot_heldPin (module.setCardPresent position false) id

theorem cacheToken_heldPin (module : Loaded Content) (id other : CkSlotId)
    (objects : TokenObjects Content) :
    (module.cacheToken id objects).2.heldPin other = module.heldPin other :=
  rfl

variable {entry : CachedPin1}

/-- A slot keeps its PIN1 only through sightings that leave its token. -/
theorem visitSlot_heldPin
    (h : (module.visitSlot position slot sighting).heldPin slot.id = some entry) :
    ¬(slot.cardPresent = true ∧
        ((module.cardEvents.get? slot.id).any (· ≠ sighting.reader.cardEvents) = true ∨
          sighting.observation ≠ .present) ∨
      slot.cardPresent = false ∧ sighting.Raises) := by
  unfold visitSlot at h
  dsimp only at h
  split at h
  · -- The card moved: the slot was cleared before anything else.
    have hCleared := (lowers_closed _).followCard _ _ _ _ (fun _ _ h => h) slot.id entry h
    rw [dropMoved_heldPin] at hCleared
    cases hCleared
  rename_i hStill
  rw [Bool.and_eq_true, not_and] at hStill
  unfold followCard at h
  dsimp only at h
  split at h
  · rename_i hArrives
    rw [Bool.and_eq_true, decide_eq_true_eq, Bool.not_eq_true'] at hArrives
    split at h
    · rename_i hBuild
      rintro (⟨hPresent, -⟩ | ⟨-, -, objects, hObjects⟩)
      · rw [hArrives.2] at hPresent
        cases hPresent
      · rw [hBuild] at hObjects
        cases hObjects
    · rw [cacheToken_heldPin, invalidateSlot_heldPin] at h
      cases h
  rename_i hArrives
  split at h
  · rw [invalidateSlot_heldPin] at h
    cases h
  rename_i hLeaves
  simp only [Bool.and_eq_true, Bool.not_eq_true', decide_eq_true_eq, decide_eq_false_iff_not,
    not_and, not_not] at hArrives hLeaves
  rintro (⟨hPresent, hMoved | hGone⟩ | ⟨hAbsent, hRaises⟩)
  · exact hStill hMoved hPresent
  · exact hGone (hLeaves hPresent)
  · exact hArrives hRaises.1 hAbsent

theorem visit_heldPin (hTable : Table before) (h : before.visit sighting = some after)
    (hView : before.view index = some slotView) (hPin : after.heldPin (index + 1) = some entry) :
    ¬slotView.Touched sighting := by
  rintro ⟨⟨hDefinite, hReader⟩, hTouch⟩
  obtain ⟨slot, hSlot, rfl⟩ := view_eq_some hView
  have hId := hTable.numbered index slot hSlot
  unfold visit at h
  rw [hDefinite, if_neg (by simp)] at h
  split at h
  · rename_i hNone
    have hOther := findIdx?_eq_none_iff.mp hNone slot (mem_of_getElem? hSlot)
    rw [decide_eq_false_iff_not] at hOther
    exact hOther hReader
  rename_i position hPosition
  obtain ⟨hLt, hFound, -⟩ := findIdx?_eq_some_iff_getElem.mp hPosition
  rw [decide_eq_true_eq, localReader_eq_some] at hFound
  have hDevice := hFound.trans (localReader_eq_some.mp hReader).symm
  obtain rfl := hTable.position_inj (getElem?_eq_getElem hLt) hSlot hDevice
  rw [hSlot] at h
  cases h
  rw [← hId] at hPin
  exact visitSlot_heldPin hPin hTouch

end Pins

section Refresh

/-- A run of one slot over sightings. What is raised has a generation from
`floor` on, and a PIN1 stays only through sightings that leave the token. -/
inductive Follows (floor : Nat) : SlotView Content → Option CachedPin1 → List (Sighting Content) →
    SlotView Content → Option CachedPin1 → Prop where
  | done (slotView : SlotView Content) (pin : Option CachedPin1) :
      Follows floor slotView pin [] slotView pin
  | seen {slotView last : SlotView Content} {pin later lastPin : Option CachedPin1}
      {sighting : Sighting Content} {rest : List (Sighting Content)} (generation : Nat)
      (hFloor : floor ≤ generation)
      (hPin : ∀ entry, later = some entry → pin = some entry ∧ ¬slotView.Touched sighting)
      (hRest : Follows floor (slotView.visit generation sighting) later rest last lastPin) :
      Follows floor slotView pin (sighting :: rest) last lastPin

variable {sightings : List (Sighting Content)}

theorem Follows.mono {floor lower} (hLower : lower ≤ floor) {last pin lastPin} (h : Follows floor slotView pin sightings last lastPin) :
    Follows lower slotView pin sightings last lastPin := by
  induction h with
  | done slotView pin => exact .done slotView pin
  | seen generation hFloor hPin _ ih => exact .seen generation (hLower.trans hFloor) hPin ih

/-- Every slot of the table goes through its own run. -/
theorem visits_follow (hTable : Table before) (h : sightings.foldlM visit before = some after)
    (hView : before.view index = some slotView) :
    ∃ last, after.view index = some last ∧
      Follows before.nextTokenGeneration slotView (before.heldPin (index + 1)) sightings last
        (after.heldPin (index + 1)) := by
  induction sightings generalizing before slotView with
  | nil =>
    cases h
    exact ⟨slotView, hView, .done _ _⟩
  | cons sighting rest ih =>
    rw [foldlM_cons, bind_eq_bind, bind_eq_some_iff] at h
    obtain ⟨next, hNext, hRest⟩ := h
    obtain ⟨last, hLast, hFollows⟩ :=
      ih ((visit_advances hNext).binds.table hTable) hRest (visit_view hTable hNext hView)
    refine ⟨last, hLast, .seen before.nextTokenGeneration (Nat.le_refl _) ?_
      (hFollows.mono ((floor_closed _).visit hNext (Nat.le_refl _)))⟩
    intro entry hEntry
    exact ⟨(lowers_closed before).visit hNext (fun _ _ h => h) _ _ hEntry,
      visit_heldPin hTable hNext hView hEntry⟩

end Refresh

end Loaded

end RefineId.Pkcs11
