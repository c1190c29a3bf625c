import RefineId.Pkcs11.SlotViews

/-! What a caller learns who asks for slot events until there are none after
every refresh. -/
namespace RefineId.Pkcs11

open Data Semantics List Nat Option BTreeMap

variable {Content : Type}

inductive Refresh (Content : Type) where
  | readers (enumeration : Except CkRv (List (Sighting Content)))
  | offers (remoteTokenObjects : RemoteTokenObjects Content) (offer : Option RemoteOffer)

namespace Loaded
variable {module before middle after : Loaded Content}

variable (module : Loaded Content)

def refresh : Refresh Content → Option (Loaded Content)
  | .readers enumeration => (module.refreshSlotsWith enumeration).map (·.2)
  | .offers remoteTokenObjects offer => module.refreshRemoteSlotsWith remoteTokenObjects offer

theorem Closed.refresh {P} (hP : Closed P) {refresh}
    (hRefresh : before.refresh refresh = some after) (h : P before) : P after := by
  cases refresh with
  | readers enumeration =>
    obtain ⟨⟨result, next⟩, hNext, rfl⟩ := map_eq_some_iff.mp hRefresh
    exact hP.refreshSlotsWith hNext h
  | offers remoteTokenObjects offer => exact hP.refreshRemoteSlotsWith hRefresh h

/-- Asking for events until there is none. -/
inductive Drains : Loaded Content → List CkSlotId → Loaded Content → Prop where
  | done {module : Loaded Content} (h : module.takeSlotEvent.1 = none) : Drains module [] module
  | next {module last : Loaded Content} {id : CkSlotId} {rest : List CkSlotId}
      (h : module.takeSlotEvent.1 = some id) (hRest : Drains module.takeSlotEvent.2 rest last) :
      Drains module (id :: rest) last

/-- The states in which a caller is who drains the events after each refresh. -/
inductive Polled (pins : PinStore) : Loaded Content → Prop where
  | start : Polled pins ⟨.blank, pins⟩
  | poll {before middle after : Loaded Content} {refresh : Refresh Content}
      {reported : List CkSlotId} (hBefore : Polled pins before)
      (hRefresh : before.refresh refresh = some middle) (hDrain : Drains middle reported after) :
      Polled pins after

variable (id : CkSlotId)

/-- The raised token of a slot that reports a card. -/
def heldToken : Option Nat := do
  let slot ← module.slot id
  if slot.cardPresent then (module.tokenCache.get? id).map (·.generation) else none

/-- The slots a drain has to report, each once: the new ones and those that do
not hold the token they held. -/
def Reports (before after : Loaded Content) (reported : List CkSlotId) : Prop :=
  reported.Nodup ∧ ∀ id, id ∈ reported ↔
    (after.slot id).isSome ∧ (before.slot id = none ∨ before.heldToken id ≠ after.heldToken id)

def Counted : Prop :=
  ∀ id objects, module.tokenCache.get? id = some objects →
    objects.generation < module.nextTokenGeneration

theorem counted_closed : Closed (@Counted Content) where
  setCardPresent _ _ h := h
  invalidateSlot id h other objects hObjects := by
    simp only [invalidateSlot, clearPin, get?_erase] at hObjects
    split_ifs at hObjects
    exact h other objects hObjects
  cacheToken id objects h other found hFound := by
    simp only [cacheToken, get?_insert] at hFound ⊢
    split at hFound
    · cases hFound
      exact lt_succ_self _
    · exact lt_succ_of_lt (h other found hFound)
  forgetReport _ h := h
  clearAllPositivePins h := h
  note _ _ h := h
  forgetLogin _ h := h
  rename _ _ _ _ _ h := h
  push _ _ _ _ h := h

def Silent (module : Loaded Content) : Prop :=
  module.eventReported.get? id = none

theorem silent_closed : Closed (@Silent Content id) where
  setCardPresent _ _ h := h
  invalidateSlot _ h := h
  cacheToken _ _ h := h
  forgetReport {module} other h := by
    unfold Silent forgetReport at *
    rw [contains_eq_isSome]
    split
    · rename_i hReported
      rw [get?_insert, if_neg, h]
      rintro rfl
      rw [h] at hReported
      cases hReported
    · exact h
  clearAllPositivePins h := h
  note _ _ h := h
  forgetLogin _ h := h
  rename _ _ _ _ _ h := h
  push _ _ _ _ h := h

end Loaded

variable {floor generation : Nat} {sighting : Sighting Content}

namespace SlotView
variable {first last : SlotView Content}

def held (slotView : SlotView Content) : Option Nat :=
  if slotView.cardPresent then slotView.token.map (·.generation) else none

/-- A slot whose last report still holds, with generations below `floor`. -/
structure Settled (floor : Nat) (slotView : SlotView Content) : Prop where
  reported : slotView.reported = some slotView.cardPresent
  token : slotView.cardPresent = true →
    ∃ objects, slotView.token = some objects ∧ objects.generation < floor

/-- The slot is due for a report exactly when its token changed. -/
def Right (first last : SlotView Content) : Prop :=
  last.reported ≠ some last.cardPresent ↔ first.held ≠ last.held

section
variable (h : Settled floor first)
include h

theorem Settled.right_of_same
    (hPresent : last.cardPresent = first.cardPresent) (hToken : last.token = first.token)
    (hReported : last.reported = first.reported) : Right first last := by
  simp [Right, held, hPresent, hToken, hReported, h.reported]

theorem Settled.held_ne (hPresent : first.cardPresent = true) :
    first.held ≠ none ∧ ∀ generation, floor ≤ generation → first.held ≠ some generation := by
  obtain ⟨objects, hToken, hBelow⟩ := h.token hPresent
  refine ⟨by simp [held, hPresent, hToken], fun generation hFloor hHeld => ?_⟩
  simp only [held, hPresent, hToken, if_true, map_some, some.injEq] at hHeld
  omega

theorem Settled.right_of_lower (hPresent : last.cardPresent = false)
    (hReported : last.reported = first.reported) : Right first last := by
  have hHeld : last.held = none := by simp [held, hPresent]
  rw [Right, hHeld, hReported, h.reported, hPresent]
  cases hFirst : first.cardPresent with
  | true => exact iff_of_true (by simp) (h.held_ne hFirst).1
  | false => simp [held, hFirst]

theorem Settled.right_of_raise {objects : TokenObjects Content} (hFloor : floor ≤ generation)
    (hPresent : last.cardPresent = true) (hToken : last.token = some { objects with generation })
    (hReported : last.reported = some false) : Right first last := by
  have hHeld : last.held = some generation := by simp [held, hPresent, hToken]
  rw [Right, hHeld, hReported, hPresent]
  refine iff_of_true (by simp) ?_
  cases hFirst : first.cardPresent with
  | true => exact (h.held_ne hFirst).2 generation hFloor
  | false => simp [held, hFirst]

/-- A sighting goes unreported exactly when it takes the card of a slot away
by its count and raises none. -/
theorem Settled.right_visit_iff (hFloor : floor ≤ generation)
    (hConcerns : sighting.Concerns first.kind) :
    Right first (first.visit generation sighting) ↔
      ¬(first.cardPresent = true ∧ first.Moved sighting = true ∧ ¬sighting.Raises) := by
  rw [visit, if_pos hConcerns]
  cases hPresent : first.cardPresent with
  | false =>
    rw [Bool.and_false, if_neg Bool.false_ne_true]
    refine iff_of_true ?_ (by simp)
    unfold follow
    dsimp only
    split
    · split
      · exact h.right_of_same rfl rfl rfl
      refine h.right_of_raise hFloor rfl rfl ?_
      rw [← hPresent]
      exact h.reported
    · rw [if_neg (by simp)]
      exact h.right_of_same rfl rfl rfl
  | true =>
    rw [Bool.and_true]
    cases hMoved : first.Moved sighting with
    | false =>
      rw [if_neg Bool.false_ne_true]
      refine iff_of_true ?_ (by simp)
      unfold follow
      dsimp only
      rw [Bool.not_true, Bool.and_false, if_neg Bool.false_ne_true, Bool.true_and]
      split
      · exact h.right_of_lower rfl rfl
      · exact h.right_of_same rfl rfl rfl
    | true =>
      rw [if_pos rfl]
      have hForgot : ((first.note sighting.reader.cardEvents).lower.forget).reported =
          some false := by
        show first.reported.map (fun _ => false) = some false
        rw [h.reported, map_some]
      unfold follow
      dsimp only
      rw [Bool.not_false, Bool.and_true, Bool.false_and, if_neg Bool.false_ne_true]
      -- Without a raised card the slot looks as if it had been reported empty.
      have hMissed {last : SlotView Content} (hReported : last.reported = some false)
          (hGone : last.cardPresent = false) : ¬Right first last := by
        intro hRight
        have hHeld : last.held = none := by simp [held, hGone]
        rw [Right, hHeld, hReported, hGone] at hRight
        exact (hRight.mpr (h.held_ne hPresent).1) rfl
      split
      · rename_i hSeen
        rw [decide_eq_true_eq] at hSeen
        split
        · rename_i error hError
          refine iff_of_false (hMissed hForgot rfl) (not_not.mpr ⟨rfl, rfl, ?_⟩)
          rintro ⟨-, objects, hObjects⟩
          rw [hError] at hObjects
          cases hObjects
        · rename_i objects hObjects
          refine iff_of_true (h.right_of_raise hFloor rfl rfl hForgot) ?_
          exact fun hMiss => hMiss.2.2 ⟨hSeen, objects, hObjects⟩
      · rename_i hSeen
        rw [decide_eq_true_eq] at hSeen
        refine iff_of_false (hMissed hForgot rfl) (not_not.mpr ⟨rfl, rfl, ?_⟩)
        exact fun hRaises => hSeen hRaises.1

end

end SlotView

open SlotView

namespace Loaded
variable {module before middle after : Loaded Content} {sightings : List (Sighting Content)}

theorem Follows.once {first last pin lastPin} (h : Follows floor first pin sightings last lastPin)
    (hOnce : (sightings.map (·.reader.id)).Nodup) :
    (last = first ∧ ∀ sighting ∈ sightings, ¬sighting.Concerns first.kind) ∨
      ∃ sighting ∈ sightings, sighting.Concerns first.kind ∧
        (∀ other ∈ sightings, other.Concerns first.kind → other = sighting) ∧
        ∃ generation, floor ≤ generation ∧ last = first.visit generation sighting := by
  induction h with
  | done slotView pin => exact .inl ⟨rfl, by simp⟩
  | @seen first last pin later lastPin sighting rest generation hFloor hPin hRest ih =>
    rw [map_cons, nodup_cons] at hOnce
    have hAlone : sighting.Concerns first.kind → ∀ other ∈ rest, ¬other.Concerns first.kind := by
      rintro ⟨-, hReader⟩ other hOther ⟨-, hSame⟩
      rw [hReader] at hSame
      exact hOnce.1 (mem_map.mpr ⟨other, hOther, (some.inj hSame).symm⟩)
    rcases ih hOnce.2 with ⟨rfl, hNone⟩ | ⟨found, hFound, hConcerns, hOnly, hLast⟩
    · rw [SlotView.visit_kind] at hNone
      by_cases hConcerns : sighting.Concerns first.kind
      · refine .inr ⟨sighting, by simp, hConcerns, ?_, generation, hFloor, rfl⟩
        exact forall_mem_cons.mpr
          ⟨fun _ => rfl, fun other hOther hConcerns => absurd hConcerns (hNone other hOther)⟩
      · exact .inl ⟨SlotView.visit_of_not_concerns hConcerns,
          forall_mem_cons.mpr ⟨hConcerns, hNone⟩⟩
    · rw [SlotView.visit_kind] at hConcerns hOnly
      have hOther : ¬sighting.Concerns first.kind := fun h => hAlone h found hFound hConcerns
      rw [SlotView.visit_of_not_concerns hOther] at hLast
      exact .inr ⟨found, mem_cons_of_mem _ hFound, hConcerns,
        forall_mem_cons.mpr ⟨fun hConcerns => absurd hConcerns hOther, hOnly⟩, hLast⟩

variable {index : Nat} {slotView : SlotView Content} {id : CkSlotId}
  {remoteTokenObjects : RemoteTokenObjects Content} {offer : Option RemoteOffer}

theorem setCardPresentOf_rewrites (hTable : Table module) (position : Nat) (present : Bool) :
    Rewrites position (fun slotView => { slotView with cardPresent := present }) module
      (module.setCardPresentOf (position + 1) present) := by
  unfold setCardPresentOf
  cases hFind : module.slots.findIdx? (·.id = position + 1) with
  | none =>
    intro index slotView hView
    obtain ⟨slot, hSlot, -⟩ := view_eq_some hView
    have hOther := findIdx?_eq_none_iff.mp hFind slot (mem_of_getElem? hSlot)
    rw [decide_eq_false_iff_not, hTable.numbered index slot hSlot] at hOther
    rw [if_neg (by omega)]
    exact hView
  | some found =>
    obtain ⟨hLt, hId, -⟩ := findIdx?_eq_some_iff_getElem.mp hFind
    rw [decide_eq_true_eq, hTable.numbered found _ (getElem?_eq_getElem hLt)] at hId
    obtain rfl : found = position := by omega
    exact setCardPresent_rewrites module found present

theorem withdrawToken_rewrites (hTable : Table module) (position : Nat) :
    Rewrites position lower module (module.withdrawToken (position + 1)) := by
  have hAbsent := ((advances_closed module).forgetLogin (position + 1)
    ((advances_closed module).setCardPresentOf (position + 1) false (.refl module))).binds.table hTable
  intro index slotView hView
  have hFirst := setCardPresentOf_rewrites hTable position false index slotView hView
  refine (invalidateSlot_rewrites hAbsent position index _ hFirst).trans ?_
  split <;> rfl

theorem withdrawTokens_view (hTable : Table module) {ids : List CkSlotId}
    (hIds : ∀ id ∈ ids, ∃ position, id = position + 1) (hView : module.view index = some slotView) :
    (ids.foldl withdrawToken module).view index =
      some (if index + 1 ∈ ids then slotView.lower else slotView) := by
  induction ids generalizing module slotView with
  | nil => simpa using hView
  | cons id rest ih =>
    obtain ⟨position, rfl⟩ := hIds id (by simp)
    have hTable' := ((advances_closed module).withdrawToken (position + 1)
      (.refl module)).binds.table hTable
    rw [foldl_cons, ih hTable' (fun id hId => hIds id (mem_cons_of_mem _ hId))
      (withdrawToken_rewrites hTable position index slotView hView)]
    by_cases hHere : position = index
    · subst hHere
      simp [lower]
    · have hElse : index ≠ position := fun h => hHere h.symm
      simp [hHere, hElse]

/-- A view of an operation that adds no slot comes from one before it. -/
theorem view_before {last} (hLength : after.slots.length = before.slots.length)
    (h : after.view index = some last) : ∃ first, before.view index = some first := by
  obtain ⟨slot, hSlot, -⟩ := view_eq_some h
  have hLt := (List.getElem?_eq_some_iff.mp hSlot).1
  rw [hLength] at hLt
  exact ⟨_, view_of_slot (List.getElem?_eq_getElem hLt)⟩

/-- A slot keeps all but its kind, which changes only at the offered pairing's
own slot. What is new is that slot, without a card. -/
theorem remoteSlotFor_view (hTable : Table before) {offer}
    (h : before.remoteSlotFor offer = some (id, after)) :
    ∃ position, id = position + 1 ∧
      (∀ index slotView, before.view index = some slotView → ∃ kind,
        (position ≠ index ∧ kind = slotView.kind ∨ kind.isRemote = true) ∧
          after.view index = some { slotView with kind }) ∧
      ∀ index slotView, before.view index = none → after.view index = some slotView →
        slotView.kind.isRemote = true ∧ slotView.cardPresent = false := by
  unfold remoteSlotFor at h
  split at h
  · rename_i position hPosition
    simp only [bind_eq_bind, bind_eq_some_iff] at h
    obtain ⟨slot, hSlot, hAfter⟩ := h
    cases hAfter
    refine ⟨position, hTable.numbered position slot hSlot, fun index slotView hView => ?_,
      fun index slotView hNone hView => ?_⟩
    · obtain ⟨other, hOther, rfl⟩ := view_eq_some hView
      rw [view, List.getElem?_modify, hOther]
      by_cases hHere : position = index
      · exact ⟨.remote offer.pairId offer.label offer.context, .inr rfl, by simp [hHere]⟩
      · exact ⟨other.kind, .inl ⟨hHere, rfl⟩, by simp [hHere]⟩
    · obtain ⟨first, hFirst⟩ : ∃ first, before.view index = some first :=
        view_before (by simp) hView
      rw [hNone] at hFirst
      cases hFirst
  simp only [bind_eq_bind, bind_eq_some_iff] at h
  obtain ⟨slots, hSlots, hAfter⟩ := h
  obtain ⟨-, rfl⟩ := pushSlot_eq_some.mp hSlots
  cases hAfter
  refine ⟨before.slots.length, hTable.next, fun index slotView hView => ?_,
    fun index slotView hNone hView => ?_⟩
  · obtain ⟨other, hOther, rfl⟩ := view_eq_some hView
    have hIndex := (List.getElem?_eq_some_iff.mp hOther).1
    refine ⟨other.kind, .inl ⟨hIndex.ne', rfl⟩, ?_⟩
    rw [view, List.getElem?_append_left hIndex, hOther]
    rfl
  · obtain ⟨other, hOther, rfl⟩ := view_eq_some hView
    rcases getElem?_append_singleton.mp hOther with hOld | ⟨-, rfl⟩
    · rw [view_of_slot hOld] at hNone
      cases hNone
    · exact ⟨rfl, rfl⟩

theorem followOffer_view (hTable : Table module) (position : Nat)
    (objects : Option (TokenObjects Content)) (hView : module.view index = some slotView) :
    ∃ last, (module.followOffer (position + 1) objects).view index = some last ∧
      (last = slotView ∨ position = index ∧ (last = slotView.lower ∨ ∃ objects,
        last = (slotView.lower.raise module.nextTokenGeneration objects).forget)) := by
  have hLower := withdrawToken_rewrites hTable position index slotView hView
  unfold followOffer
  split
  · refine ⟨_, hLower, ?_⟩
    split
    · rename_i hHere
      exact .inr ⟨hHere, .inl rfl⟩
    · exact .inl rfl
  rename_i objects
  split
  · exact ⟨slotView, hView, .inl rfl⟩
  have hTable' := ((advances_closed module).withdrawToken (position + 1)
    (.refl module)).binds.table hTable
  have hCached := cacheToken_rewrites hTable' position objects
  have hTable'' := ((advances_closed _).cacheToken (position + 1) objects
    (.refl _)).binds.table hTable'
  have hPresent := setCardPresentOf_rewrites hTable'' position true
  have hForget := forgetReport_rewrites (((advances_closed _).setCardPresentOf (position + 1) true
    (.refl _)).binds.table hTable'') position
  refine ⟨_, ((hCached.trans hPresent).trans hForget) index _ hLower, ?_⟩
  split
  · rename_i hHere
    exact .inr ⟨hHere, .inr ⟨objects, rfl⟩⟩
  · exact .inl rfl

theorem unnamed_ids (hTable : Table module) (offer : Option RemoteOffer) :
    ∀ id ∈ module.unnamed offer, ∃ position, id = position + 1 := by
  intro id hId
  obtain ⟨slot, hSlot, rfl⟩ := mem_map.mp hId
  obtain ⟨position, hPosition⟩ := mem_iff_getElem?.mp (mem_filter.mp hSlot).1
  exact ⟨position, hTable.numbered position slot hPosition⟩

theorem offers_right (hTable : Table before)
    (h : before.refreshRemoteSlotsWith remoteTokenObjects offer = some after)
    (hView : before.view index = some slotView)
    (hSettled : slotView.Settled before.nextTokenGeneration) :
    ∃ last, after.view index = some last ∧ slotView.Right last := by
  have hWithdrawn := withdrawTokens_view hTable (unnamed_ids hTable offer) hView
  have hTable' := ((advances_closed before).withdrawTokens (before.unnamed offer)
    (.refl before)).binds.table hTable
  unfold refreshRemoteSlotsWith at h
  cases offer with
  | none =>
    cases h
    refine ⟨_, hWithdrawn, ?_⟩
    split
    · exact hSettled.right_of_lower rfl rfl
    · exact hSettled.right_of_same rfl rfl rfl
  | some offer =>
    simp only [bind_eq_bind, bind_eq_some_iff] at h
    obtain ⟨⟨id, named⟩, hNamed, hAfter⟩ := h
    cases hAfter
    obtain ⟨position, rfl, hKinds, -⟩ := remoteSlotFor_view hTable' hNamed
    obtain ⟨kind, -, hKind⟩ := hKinds index _ hWithdrawn
    have hTable'' := ((advances_closed _).remoteSlotFor hNamed (.refl _)).binds.table hTable'
    have hFloor : before.nextTokenGeneration ≤ named.nextTokenGeneration :=
      (floor_closed _).remoteSlotFor hNamed
        ((floor_closed _).withdrawTokens _ (le_refl before.nextTokenGeneration))
    obtain ⟨last, hLast, rfl | ⟨-, rfl | ⟨objects, rfl⟩⟩⟩ := followOffer_view hTable'' position
      (offer.certificate.bind (remoteTokenObjects offer.pairId)) hKind
    · refine ⟨_, hLast, ?_⟩
      split
      · exact hSettled.right_of_lower rfl rfl
      · exact hSettled.right_of_same rfl rfl rfl
    · refine ⟨_, hLast, hSettled.right_of_lower rfl ?_⟩
      split <;> rfl
    · refine ⟨_, hLast, hSettled.right_of_raise hFloor rfl rfl ?_⟩
      have hReported : ∀ view : SlotView Content, view.reported = slotView.reported →
          view.reported.map (fun _ => false) = some false := by
        intro view hSame
        rw [hSame, hSettled.reported, map_some]
      refine hReported _ ?_
      split <;> rfl

/-- Whether the mark of a slot differs from its last report. -/
def due (module : Loaded Content) (slot : SlotRecord) : Bool :=
  module.eventReported.get? slot.id ≠ some slot.cardPresent

theorem Table.ids_nodup (h : Table module) : (module.slots.map (·.id)).Nodup := by
  refine nodup_iff_getElem?_ne_getElem?.mpr fun first second hLt hBound hSame => ?_
  rw [length_map] at hBound
  have hFirst := getElem?_eq_getElem (hLt.trans hBound)
  have hSecond := getElem?_eq_getElem hBound
  rw [getElem?_map, getElem?_map, hFirst, hSecond, map_some, map_some,
    h.numbered first _ hFirst, h.numbered second _ hSecond, some.injEq] at hSame
  omega

/-- The state a drain leaves: every slot is reported as it is. -/
structure Drained (before after : Loaded Content) : Prop where
  beside : ∃ reports, after = { before with eventReported := reports }
  reported : ∀ slot ∈ before.slots, after.eventReported.get? slot.id = some slot.cardPresent
  silent : ∀ id, (∀ slot ∈ before.slots, slot.id ≠ id) →
    after.eventReported.get? id = before.eventReported.get? id

theorem takeSlotEvent_eq (module : Loaded Content) : module.takeSlotEvent =
    match module.slots.find? module.due with
    | none => (none, module)
    | some slot => (some slot.id, { module with
        eventReported := module.eventReported.insert slot.id slot.cardPresent }) :=
  rfl

theorem drains_due {pending} (hIds : (module.slots.map (·.id)).Nodup)
    (hDue : module.slots.filter module.due = pending) :
    ∃ last, Drains module (pending.map (·.id)) last ∧ Drained module last := by
  have hFind : pending.head? = module.slots.find? module.due := by rw [← hDue, List.head?_filter]
  induction pending generalizing module with
  | nil =>
    refine ⟨module, .done ?_, ⟨_, rfl⟩, ?_, fun _ _ => rfl⟩
    · rw [takeSlotEvent_eq, ← hFind]
      rfl
    · intro slot hSlot
      have hNot := filter_eq_nil_iff.mp hDue slot hSlot
      simpa [due] using hNot
  | cons first rest ih =>
    have hTake : module.takeSlotEvent = (some first.id, { module with
        eventReported := module.eventReported.insert first.id first.cardPresent }) := by
      rw [takeSlotEvent_eq, ← hFind]
      rfl
    have hFirst : first ∈ module.slots :=
      (mem_filter.mp (hDue ▸ mem_cons_self)).1
    -- After the report exactly the other due slots are due.
    have hRest : module.slots.filter (due { module with
        eventReported := module.eventReported.insert first.id first.cardPresent }) = rest := by
      have hSub : (first :: rest).Sublist module.slots := hDue ▸ filter_sublist
      have hOnce := (hSub.map (·.id)).nodup hIds
      rw [map_cons, nodup_cons] at hOnce
      have hKeep : rest = (first :: rest).filter (fun slot => slot.id ≠ first.id) := by
        rw [filter_cons_of_neg (by simp), filter_eq_self.mpr]
        intro slot hSlot
        have hNe : slot.id ≠ first.id := fun h =>
          hOnce.1 (mem_map.mpr ⟨slot, hSlot, h⟩)
        simpa using hNe
      rw [hKeep, ← hDue, List.filter_filter]
      refine filter_congr fun slot hSlot => ?_
      by_cases hId : slot.id = first.id
      · have hSame : slot = first := (inj_on_of_nodup_map hIds) hSlot hFirst hId
        simp [due, hSame]
      · simp [due, get?_insert, hId]
    obtain ⟨last, hDrains, ⟨reports, hLast⟩, hReported, hSilent⟩ :=
      ih (by exact hIds) hRest (by rw [← hRest, List.head?_filter])
    refine ⟨last, .next (by rw [hTake]) (by rw [hTake]; exact hDrains), ⟨reports, hLast⟩,
      hReported, ?_⟩
    intro id hId
    rw [hSilent id hId, get?_insert, if_neg fun h => hId first hFirst h.symm]

theorem Drains.unique {reported other last otherLast}
    (h : Drains module reported last) (hOther : Drains module other otherLast) :
    reported = other ∧ last = otherLast := by
  induction h generalizing other with
  | done hNone =>
    cases hOther with
    | done => exact ⟨rfl, rfl⟩
    | next hSome =>
      rw [hNone] at hSome
      cases hSome
  | next hSome _ ih =>
    cases hOther with
    | done hNone =>
      rw [hNone] at hSome
      cases hSome
    | next hSome' hRest =>
      rw [hSome] at hSome'
      cases hSome'
      obtain ⟨rfl, rfl⟩ := ih hRest
      exact ⟨rfl, rfl⟩

section Polls

/-- A slot that reports a card has its objects. -/
def Backed (module : Loaded Content) : Prop :=
  ∀ index slotView, module.view index = some slotView → slotView.cardPresent = true →
    slotView.token.isSome = true

theorem SlotView.visit_backed (h : slotView.cardPresent = true → slotView.token.isSome = true) :
    (slotView.visit generation sighting).cardPresent = true →
      (slotView.visit generation sighting).token.isSome = true := by
  have hFollow : ∀ (first : SlotView Content) (wasPresent : Bool),
      (first.cardPresent = true → first.token.isSome = true) →
      (first.follow generation wasPresent sighting).cardPresent = true →
        (first.follow generation wasPresent sighting).token.isSome = true := by
    intro first wasPresent hFirst
    unfold follow
    dsimp only
    split
    · split
      · exact hFirst
      · exact fun _ => rfl
    · split
      · exact nofun
      · exact hFirst
  unfold SlotView.visit
  split
  · split
    · exact hFollow _ _ nofun
    · exact hFollow _ _ h
  · exact h

theorem Backed.visit (hTable : Table before) (hVisit : before.visit sighting = some after)
    (h : Backed before) : Backed after := by
  intro index last hLast
  cases hFirst : before.view index with
  | none =>
    obtain ⟨-, -, -, -, rfl⟩ := visit_new hTable hVisit hFirst hLast
    exact fun _ => rfl
  | some first =>
    rw [visit_view hTable hVisit hFirst] at hLast
    cases hLast
    exact SlotView.visit_backed (h index first hFirst)

theorem Backed.visits (hTable : Table before)
    (hVisits : sightings.foldlM Loaded.visit before = some after) (h : Backed before) :
    Backed after := by
  induction sightings generalizing before with
  | nil =>
    cases hVisits
    exact h
  | cons sighting rest ih =>
    rw [foldlM_cons, bind_eq_bind, bind_eq_some_iff] at hVisits
    obtain ⟨next, hNext, hRest⟩ := hVisits
    exact ih ((visit_advances hNext).binds.table hTable) hRest (h.visit hTable hNext)

theorem setCardPresentOf_length (module : Loaded Content) (id : CkSlotId) (present : Bool) :
    (module.setCardPresentOf id present).slots.length = module.slots.length := by
  unfold setCardPresentOf
  split <;> simp

theorem followOffer_length (module : Loaded Content) (id : CkSlotId)
    (objects : Option (TokenObjects Content)) :
    (module.followOffer id objects).slots.length = module.slots.length := by
  have hWithdrawn : (module.withdrawToken id).slots.length = module.slots.length :=
    setCardPresentOf_length module id false
  unfold followOffer
  split
  · exact hWithdrawn
  split
  · rfl
  · exact (setCardPresentOf_length _ id true).trans hWithdrawn

theorem withdrawTokens_length (module : Loaded Content) (ids : List CkSlotId) :
    (ids.foldl withdrawToken module).slots.length = module.slots.length := by
  induction ids generalizing module with
  | nil => rfl
  | cons id rest ih => exact (ih _).trans (setCardPresentOf_length module id false)

/-- What holds of every slot still does after an offer was followed, if it holds
without a card, whatever a pairing is called, and of a pairing with objects. -/
theorem offers_keep {P : SlotView Content → Prop}
    (hAbsent : ∀ slotView, slotView.cardPresent = false → P slotView)
    (hKind : ∀ slotView kind, kind.isRemote = true → P slotView → P { slotView with kind })
    (hRaised : ∀ slotView, slotView.kind.isRemote = true → slotView.token.isSome = true → P slotView)
    (hTable : Table before)
    (hRefresh : before.refreshRemoteSlotsWith remoteTokenObjects offer = some after)
    (h : ∀ index first, before.view index = some first → P first) {last : SlotView Content}
    (hLast : after.view index = some last) : P last := by
  have hWithdrawn : ∀ index last,
      ((before.unnamed offer).foldl withdrawToken before).view index = some last → P last := by
    intro index last hLast
    obtain ⟨first, hFirst⟩ := view_before (withdrawTokens_length before _) hLast
    rw [withdrawTokens_view hTable (unnamed_ids hTable offer) hFirst] at hLast
    cases hLast
    split
    · exact hAbsent _ rfl
    · exact h index first hFirst
  have hTable' := ((advances_closed before).withdrawTokens (before.unnamed offer)
    (.refl before)).binds.table hTable
  unfold refreshRemoteSlotsWith at hRefresh
  cases offer with
  | none =>
    cases hRefresh
    exact hWithdrawn index last hLast
  | some offer =>
    simp only [bind_eq_bind, bind_eq_some_iff] at hRefresh
    obtain ⟨⟨id, named⟩, hNamed, hAfter⟩ := hRefresh
    cases hAfter
    obtain ⟨position, rfl, hKinds, hNew⟩ := remoteSlotFor_view hTable' hNamed
    have hTable'' := ((advances_closed _).remoteSlotFor hNamed (.refl _)).binds.table hTable'
    obtain ⟨first, hFirst⟩ := view_before (followOffer_length named _ _) hLast
    have hOwn : P first ∧ (position = index → first.kind.isRemote = true) := by
      cases hOld : ((before.unnamed (some offer)).foldl withdrawToken before).view index with
      | none =>
        obtain ⟨hRemote, hNone⟩ := hNew index first hOld hFirst
        exact ⟨hAbsent _ hNone, fun _ => hRemote⟩
      | some old =>
        obtain ⟨kind, hCases, hView⟩ := hKinds index old hOld
        rw [hFirst] at hView
        cases hView
        rcases hCases with ⟨hElse, rfl⟩ | hRemote
        · exact ⟨hWithdrawn index old hOld, fun hHere => absurd hHere hElse⟩
        · exact ⟨hKind old kind hRemote (hWithdrawn index old hOld), fun _ => hRemote⟩
    obtain ⟨other, hOther, hCases⟩ := followOffer_view hTable'' position
      (offer.certificate.bind (remoteTokenObjects offer.pairId)) hFirst
    rw [hLast] at hOther
    cases hOther
    rcases hCases with rfl | ⟨hHere, rfl | ⟨objects, rfl⟩⟩
    · exact hOwn.1
    · exact hAbsent _ rfl
    · exact hRaised _ (hOwn.2 hHere) rfl

theorem Backed.offers (hTable : Table before)
    (hRefresh : before.refreshRemoteSlotsWith remoteTokenObjects offer = some after)
    (h : Backed before) : Backed after := by
  intro index last hLast
  refine offers_keep ?_ (fun _ _ _ => id) (fun _ _ hToken _ => ?_) hTable hRefresh h hLast
  · intro slotView hAbsent hPresent
    rw [hAbsent] at hPresent
    cases hPresent
  · exact hToken

/-- What holds whenever the events were drained. -/
structure Steady (module : Loaded Content) : Prop where
  table : Table module
  counted : Counted module
  backed : Backed module
  reported : ∀ slot ∈ module.slots, module.eventReported.get? slot.id = some slot.cardPresent
  silent : ∀ id, module.slots.length < id → Silent id module

theorem Steady.blank (pins : PinStore) : Steady (⟨ModuleState.blank, pins⟩ : Loaded Content) where
  table := .blank pins
  counted id objects h := by simp [ModuleState.blank] at h
  backed index slotView h := by simp [view, ModuleState.blank] at h
  reported slot h := by simp [ModuleState.blank] at h
  silent id _ := by simp [Silent, ModuleState.blank]

variable {refresh : Refresh Content}

theorem Steady.backed_refresh (h : Steady before) (hRefresh : before.refresh refresh = some middle) :
    Backed middle := by
  cases refresh with
  | readers enumeration =>
    obtain ⟨⟨result, next⟩, hNext, rfl⟩ := map_eq_some_iff.mp hRefresh
    cases enumeration with
    | error error =>
      cases hNext
      exact h.backed
    | ok sightings =>
      obtain ⟨last, hLast, hEq⟩ := map_eq_some_iff.mp hNext
      cases hEq
      exact h.backed.visits h.table hLast
  | offers remoteTokenObjects offer => exact h.backed.offers h.table hRefresh

theorem Steady.silent_refresh (h : Steady before) (hRefresh : before.refresh refresh = some middle)
    (hId : before.slots.length < id) : Silent id middle :=
  (silent_closed id).refresh hRefresh (h.silent id hId)

theorem Steady.poll (h : Steady before) (hRefresh : before.refresh refresh = some middle)
    (hDrained : Drained middle after) : Steady after := by
  have hAdvances := (advances_closed before).refresh hRefresh (.refl before)
  have hTable := hAdvances.binds.table h.table
  have hCounted : Counted middle := counted_closed.refresh hRefresh h.counted
  obtain ⟨⟨reports, rfl⟩, hReported, hSilent⟩ := hDrained
  refine ⟨⟨hTable.numbered, hTable.next, hTable.fits, hTable.devices⟩, hCounted, ?_, hReported, ?_⟩
  · intro index slotView hView
    obtain ⟨slot, hSlot, rfl⟩ := view_eq_some hView
    have hMiddle := view_of_slot (show middle.slots[index]? = some slot from hSlot)
    have hBacked := h.backed_refresh hRefresh index _ hMiddle
    exact hBacked
  intro id hId
  have hLength : before.slots.length ≤ middle.slots.length := by
    by_contra hLess
    obtain ⟨later, hLater, -⟩ := hAdvances.binds.kept middle.slots.length _
      (List.getElem?_eq_getElem (by omega))
    exact absurd (List.getElem?_eq_some_iff.mp hLater).1 (lt_irrefl _)
  refine (hSilent id ?_).trans (h.silent_refresh hRefresh (hLength.trans_lt hId))
  intro slot hSlot hEq
  obtain ⟨index, hIndex⟩ := mem_iff_getElem?.mp hSlot
  have hNumber := hTable.numbered index slot hIndex
  have hLt := (List.getElem?_eq_some_iff.mp hIndex).1
  have hPast : middle.slots.length < id := hId
  omega

theorem Polled.steady {pins} (h : Polled pins module) : Steady module := by
  induction h with
  | start => exact .blank pins
  | @poll before middle after refresh reported _ hRefresh hDrain ih =>
    have hTable := ((advances_closed before).refresh hRefresh (.refl before)).binds.table ih.table
    obtain ⟨last, hDrains, hDrained⟩ := drains_due hTable.ids_nodup rfl
    obtain ⟨-, rfl⟩ := hDrain.unique hDrains
    exact ih.poll hRefresh hDrained

theorem Steady.settled (h : Steady module) (hView : module.view index = some slotView) :
    slotView.Settled module.nextTokenGeneration := by
  obtain ⟨slot, hSlot, rfl⟩ := view_eq_some hView
  refine ⟨h.reported slot (mem_of_getElem? hSlot), fun hPresent => ?_⟩
  obtain ⟨objects, hObjects⟩ := isSome_iff_exists.mp (h.backed index _ hView hPresent)
  exact ⟨objects, hObjects, h.counted _ objects hObjects⟩

theorem slot_of_view (hTable : Table module) (h : module.view index = some slotView) :
    ∃ slot, module.slot (index + 1) = some slot ∧ slot ∈ module.slots ∧ slot.id = index + 1 ∧
      (module.due slot = true ↔ slotView.reported ≠ some slotView.cardPresent) ∧
      module.heldToken (index + 1) = slotView.held := by
  obtain ⟨slot, hSlot, rfl⟩ := view_eq_some h
  have hId := hTable.numbered index slot hSlot
  have hFind := hTable.slot_eq hSlot
  rw [hId] at hFind
  refine ⟨slot, hFind, mem_of_getElem? hSlot, hId, by simp [due], ?_⟩
  simp [heldToken, hFind, held, hId]

/-- The due slots are those to report exactly when every view is right. -/
theorem Steady.reports_iff (h : Steady before) (hRefresh : before.refresh refresh = some middle) :
    Reports before middle ((middle.slots.filter middle.due).map (·.id)) ↔
      ∀ index first last, before.view index = some first → middle.view index = some last →
        first.Right last := by
  have hAdvances := (advances_closed before).refresh hRefresh (.refl before)
  have hTable := hAdvances.binds.table h.table
  have hMem : ∀ {index last}, middle.view index = some last →
      (index + 1 ∈ (middle.slots.filter middle.due).map (·.id) ↔
        last.reported ≠ some last.cardPresent) := by
    intro index last hLast
    obtain ⟨slot, hFind, hSlot, hId, hDue, -⟩ := slot_of_view hTable hLast
    rw [← hDue, List.mem_map]
    constructor
    · rintro ⟨other, hOther, hSame⟩
      obtain ⟨hOther, hOtherDue⟩ := mem_filter.mp hOther
      rw [← inj_on_of_nodup_map hTable.ids_nodup hOther hSlot (hSame.trans hId.symm)]
      exact hOtherDue
    · intro hDue
      exact ⟨slot, mem_filter.mpr ⟨hSlot, hDue⟩, hId⟩
  constructor
  · rintro ⟨-, hReports⟩ index first last hFirst hLast
    obtain ⟨slot, hFind, -, -, -, hHeld⟩ := slot_of_view h.table hFirst
    obtain ⟨later, hLater, -, -, -, hLaterHeld⟩ := slot_of_view hTable hLast
    rw [Right, ← hMem hLast, hReports, hFind, hLater, hHeld, hLaterHeld]
    simp
  intro hRight
  refine ⟨(filter_sublist.map SlotRecord.id).nodup hTable.ids_nodup, fun id => ?_⟩
  constructor
  · intro hId
    obtain ⟨slot, hSlot, rfl⟩ := mem_map.mp hId
    obtain ⟨index, hIndex⟩ := mem_iff_getElem?.mp (mem_filter.mp hSlot).1
    have hNumber := hTable.numbered index slot hIndex
    have hLast := view_of_slot hIndex
    rw [hNumber] at hId ⊢
    obtain ⟨later, hLater, -, -, -, hLaterHeld⟩ := slot_of_view hTable hLast
    refine ⟨by rw [hLater]; rfl, ?_⟩
    cases hFirst : before.view index with
    | none =>
      refine .inl (List.find?_eq_none.mpr fun other hOther hSame => ?_)
      rw [decide_eq_true_eq] at hSame
      obtain ⟨place, hPlace⟩ := mem_iff_getElem?.mp hOther
      have hOtherNumber := h.table.numbered place other hPlace
      obtain rfl : place = index := by omega
      rw [view_of_slot hPlace] at hFirst
      cases hFirst
    | some first =>
      obtain ⟨-, -, -, -, -, hHeld⟩ := slot_of_view h.table hFirst
      rw [hHeld, hLaterHeld]
      exact .inr ((hRight index first _ hFirst hLast).mp ((hMem hLast).mp hId))
  rintro ⟨hSome, hChange⟩
  obtain ⟨slot, hSlot⟩ := isSome_iff_exists.mp hSome
  obtain ⟨index, hIndex⟩ := mem_iff_getElem?.mp (mem_of_find?_eq_some hSlot)
  have hNumber := hTable.numbered index slot hIndex
  obtain rfl : slot.id = id := by simpa using List.find?_some hSlot
  have hLast := view_of_slot hIndex
  rw [hNumber] at hChange ⊢
  rw [hMem hLast]
  obtain ⟨-, -, -, -, -, hLaterHeld⟩ := slot_of_view hTable hLast
  cases hFirst : before.view index with
  | none =>
    -- Nothing was ever reported of a new slot.
    have hPast : before.slots.length < index + 1 := by
      rw [view, map_eq_none_iff, List.getElem?_eq_none_iff] at hFirst
      omega
    have hSilent : middle.eventReported.get? (index + 1) = none :=
      h.silent_refresh hRefresh hPast
    rw [hNumber, hSilent]
    simp
  | some first =>
    obtain ⟨early, hFind, -, -, -, hHeld⟩ := slot_of_view h.table hFirst
    rw [hFind, hHeld, hLaterHeld] at hChange
    exact (hRight index first _ hFirst hLast).mpr (hChange.resolve_left (by simp))

/-- A refresh that sees every reader at most once. -/
def Refresh.ListsOnce : Refresh Content → Prop
  | .readers (.ok sightings) => (sightings.map (·.reader.id)).Nodup
  | _ => True

/-- A slot with a token whose reader shows another count and no card that can
be raised. -/
def Misses (before : Loaded Content) : Refresh Content → Prop
  | .readers (.ok sightings) => ∃ slot ∈ before.slots, ∃ sighting ∈ sightings,
      sighting.Concerns slot.kind ∧ slot.cardPresent = true ∧
        (before.cardEvents.get? slot.id).any (· ≠ sighting.reader.cardEvents) = true ∧
        ¬sighting.Raises
  | _ => False

/-- Every view is right unless the refresh misses an exchanged card. -/
theorem Steady.right_iff (h : Steady before) (hRefresh : before.refresh refresh = some middle)
    (hOnce : Refresh.ListsOnce refresh) :
    (∀ index first last, before.view index = some first → middle.view index = some last →
      first.Right last) ↔ ¬Misses before refresh := by
  cases refresh with
  | offers remoteTokenObjects offer =>
    refine iff_of_true ?_ id
    intro index first last hFirst hLast
    obtain ⟨other, hOther, hRight⟩ := offers_right h.table hRefresh hFirst (h.settled hFirst)
    rw [hLast] at hOther
    cases hOther
    exact hRight
  | readers enumeration =>
    obtain ⟨⟨result, next⟩, hNext, rfl⟩ := map_eq_some_iff.mp hRefresh
    cases enumeration with
    | error error =>
      cases hNext
      refine iff_of_true ?_ id
      intro index first last hFirst hLast
      obtain rfl : first = last := some.inj (hFirst.symm.trans hLast)
      exact (h.settled hFirst).right_of_same rfl rfl rfl
    | ok sightings =>
      obtain ⟨final, hFinal, hEq⟩ := map_eq_some_iff.mp hNext
      cases hEq
      constructor
      · rintro hAll ⟨slot, hSlot, sighting, hSighting, hConcerns, hPresent, hMoved, hRaises⟩
        obtain ⟨index, hIndex⟩ := mem_iff_getElem?.mp hSlot
        have hFirst := view_of_slot hIndex
        obtain ⟨last, hLast, hFollows⟩ := visits_follow h.table hFinal hFirst
        rcases hFollows.once hOnce with ⟨-, hNone⟩ | ⟨found, -, hFound, hOnly, generation, hFloor, rfl⟩
        · exact hNone sighting hSighting hConcerns
        obtain rfl := hOnly sighting hSighting hConcerns
        exact ((h.settled hFirst).right_visit_iff hFloor hFound).mp
          (hAll index _ _ hFirst hLast) ⟨hPresent, hMoved, hRaises⟩
      intro hMisses index first last hFirst hLast
      obtain ⟨other, hOther, hFollows⟩ := visits_follow h.table hFinal hFirst
      rw [hLast] at hOther
      cases hOther
      rcases hFollows.once hOnce with ⟨rfl, -⟩ | ⟨found, hFound, hConcerns, -, generation, hFloor, rfl⟩
      · exact (h.settled hFirst).right_of_same rfl rfl rfl
      refine ((h.settled hFirst).right_visit_iff hFloor hConcerns).mpr ?_
      rintro ⟨hPresent, hMoved, hRaises⟩
      obtain ⟨slot, hSlot, rfl⟩ := view_eq_some hFirst
      exact hMisses ⟨slot, mem_of_getElem? hSlot, found, hFound, hConcerns, hPresent,
        hMoved, hRaises⟩

/-- In every run in which the events are drained after each refresh, a drain
ends, and it reports exactly the slots that are new or do not hold the token
they held, each once, unless a card was seen to have left by its reader's count
alone. -/
theorem drain_reports_iff {pins : PinStore} {refresh : Refresh Content}
    (hPolled : Polled pins before) (hRefresh : before.refresh refresh = some middle)
    (hOnce : Refresh.ListsOnce refresh) :
    (∃ reported after, Drains middle reported after) ∧
    ∀ reported after, Drains middle reported after →
      (Reports before middle reported ↔ ¬Misses before refresh) := by
  have hSteady := hPolled.steady
  have hTable := ((advances_closed before).refresh hRefresh (.refl before)).binds.table hSteady.table
  obtain ⟨last, hDrains, -⟩ := drains_due hTable.ids_nodup rfl
  refine ⟨⟨_, last, hDrains⟩, fun reported after hReported => ?_⟩
  obtain ⟨rfl, -⟩ := hReported.unique hDrains
  rw [hSteady.reports_iff hRefresh, hSteady.right_iff hRefresh hOnce]

end Polls

/-- A reader with a card that can be raised. -/
def inserted : Sighting Unit :=
  ⟨⟨⟨"reader"⟩, true, 0⟩, .present, .ok ⟨[], (), 0⟩⟩

/-- The same reader after its card was taken out. -/
def removed : Sighting Unit :=
  ⟨⟨⟨"reader"⟩, false, 1⟩, .absent, .error .deviceError⟩

/-- The card was reported and is taken out: its slot stays, holds nothing, and
the drain after the refresh that saw this reports no slot. -/
theorem removal_reported_by_no_drain : ∃ before middle : Loaded Unit,
    Polled .empty before ∧ before.refresh (.readers (.ok [removed])) = some middle ∧
      before.heldToken 1 = some 1 ∧ (middle.slot 1).isSome ∧ middle.heldToken 1 = none ∧
      Drains middle [] middle ∧ ¬Reports before middle [] := by
  have hRaised : (⟨.blank, .empty⟩ : Loaded Unit).refresh (.readers (.ok [inserted])) = some _ := rfl
  refine ⟨_, _, .poll .start hRaised (.next rfl (.done rfl)), rfl, rfl, rfl, rfl, .done rfl, ?_⟩
  intro hReports
  have hMember := (hReports.2 1).mpr ⟨rfl, Or.inr (by decide)⟩
  exact not_mem_nil hMember

theorem drain_reports_insertion : ∃ middle reported after,
    (⟨.blank, .empty⟩ : Loaded Unit).refresh (.readers (.ok [inserted])) = some middle ∧
      Drains middle reported after ∧ Reports ⟨.blank, .empty⟩ middle reported := by
  have hPolled : Polled .empty (⟨.blank, .empty⟩ : Loaded Unit) := .start
  have hRaised : (⟨.blank, .empty⟩ : Loaded Unit).refresh (.readers (.ok [inserted])) = some _ := rfl
  obtain ⟨⟨reported, after, hDrains⟩, hReports⟩ :=
    drain_reports_iff hPolled hRaised (nodup_singleton _)
  refine ⟨_, reported, after, hRaised, hDrains, (hReports reported after hDrains).mpr ?_⟩
  rintro ⟨slot, hSlot, -⟩
  exact not_mem_nil hSlot

end Loaded

end RefineId.Pkcs11
