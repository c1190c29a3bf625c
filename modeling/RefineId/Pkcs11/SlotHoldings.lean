import RefineId.Pkcs11.PinOwnership
import RefineId.Pkcs11.SlotEvents

/-! What a slot has of a card after a refresh: its mark, its objects and its
PIN1, against the readers the refresh has seen. `takenAt` is the count of the
reader at which objects were read. -/
namespace RefineId.Pkcs11

open Data Semantics List Option Loaded ModuleState SlotView
open PinCache (Mac)

variable {Content E : Type} (takenAt : Content → UInt32)

/-- The objects a sighting yields are read at the count it shows. -/
def Sighting.Dated (sighting : Sighting Content) : Prop :=
  ∀ objects, sighting.buildObjects = .ok objects →
    takenAt objects.content = sighting.reader.cardEvents

variable {first last : SlotView Content} {pin : Option CachedPin1} {sighting : Sighting Content}

namespace SlotView
variable {later : Option CachedPin1} {generation : Nat}

variable (slotView : SlotView Content)

def Holds (pin : Option CachedPin1) : Prop :=
  slotView.cardPresent = true ∨ slotView.token.isSome = true ∨ pin.isSome = true

def TakenAt (pin : Option CachedPin1) (count : UInt32) : Prop :=
  (∀ objects, slotView.token = some objects → takenAt objects.content = count) ∧
    ∀ entry, pin = some entry → entry.cardEvents = count

/-- A card that is reported was read at the count noted last. -/
def Dated : Prop :=
  slotView.cardPresent = true → ∃ objects, slotView.token = some objects ∧
    slotView.cardEvents = some (takenAt objects.content)

def VouchedBy (pin : Option CachedPin1) (sighting : Sighting Content) : Prop :=
  slotView.kind.localReader = some sighting.reader.id ∧
    (sighting.observation = .temporarilyUnavailable ∨
      sighting.observation = .present ∧ slotView.TakenAt takenAt pin sighting.reader.cardEvents)

/-- A sighting the slot can meet without keeping what is not of the card seen.
A reported card needs a PIN1 of the count noted with it. Without one the
sighting must raise a card, or see the very card everything was taken from. -/
def Fits (pin : Option CachedPin1) (sighting : Sighting Content) : Prop :=
  if slotView.cardPresent then ∀ entry, pin = some entry → slotView.cardEvents = some entry.cardEvents
  else sighting.Raises ∨
    sighting.observation = .present ∧ slotView.TakenAt takenAt pin sighting.reader.cardEvents

variable {takenAt}

theorem Holds.mono (h : first.Holds later) (hPin : ∀ entry, later = some entry → pin = some entry) :
    first.Holds pin := by
  rcases h with h | h | h
  · exact .inl h
  · exact .inr (.inl h)
  · obtain ⟨entry, hEntry⟩ := isSome_iff_exists.mp h
    exact .inr (.inr (by rw [hPin entry hEntry]; rfl))

theorem TakenAt.mono {count} (h : first.TakenAt takenAt pin count)
    (hPin : ∀ entry, later = some entry → pin = some entry) : first.TakenAt takenAt later count :=
  ⟨h.1, fun entry hEntry => h.2 entry (hPin entry hEntry)⟩

theorem Fits.of_present (h : first.cardPresent = true)
    (hPin : ∀ entry, pin = some entry → first.cardEvents = some entry.cardEvents) :
    first.Fits takenAt pin sighting := by
  rw [Fits, if_pos h]
  exact hPin

theorem Fits.mono (h : first.Fits takenAt pin sighting)
    (hPin : ∀ entry, later = some entry → pin = some entry) : first.Fits takenAt later sighting := by
  unfold Fits at h ⊢
  split
  · rename_i hPresent
    rw [if_pos hPresent] at h
    exact fun entry hEntry => h entry (hPin entry hEntry)
  · rename_i hAbsent
    rw [if_neg hAbsent] at h
    exact h.imp_right fun h => ⟨h.1, h.2.mono hPin⟩

/-- A visit that touches the slot leaves it empty or with a card just read;
every other visit only notes the count. -/
theorem visit_cases (generation : Nat) (h : sighting.Concerns first.kind) :
    (first.Touched sighting ∧ (first.visit generation sighting).cardEvents =
        some sighting.reader.cardEvents ∧
      ((first.visit generation sighting).cardPresent = false ∧
          (first.visit generation sighting).token = none ∨
        ∃ objects, sighting.observation = .present ∧ sighting.buildObjects = .ok objects ∧
          (first.visit generation sighting).cardPresent = true ∧
          (first.visit generation sighting).token = some { objects with generation })) ∨
    ¬first.Touched sighting ∧
      first.visit generation sighting = first.note sighting.reader.cardEvents := by
  unfold visit
  rw [if_pos h]
  by_cases hMoved : (first.Moved sighting && first.cardPresent) = true
  · rw [if_pos hMoved]
    rw [Bool.and_eq_true] at hMoved
    refine .inl ⟨⟨h, .inl ⟨hMoved.2, .inl hMoved.1⟩⟩, ?_⟩
    unfold follow
    by_cases hSeen : sighting.observation = .present
    · cases hBuild : sighting.buildObjects with
      | error error => simp [hSeen, lower, forget, note]
      | ok objects => simp [hSeen, lower, forget, note, raise]
    · simp [hSeen, lower, forget, note]
  rw [if_neg hMoved]
  rw [Bool.and_eq_true, not_and] at hMoved
  unfold follow
  cases hPresent : first.cardPresent with
  | true =>
    by_cases hSeen : sighting.observation = .present
    · refine .inr ⟨?_, by simp [hSeen]⟩
      rintro ⟨-, ⟨-, hM | hGone⟩ | ⟨hAbsent, -⟩⟩
      · exact hMoved hM hPresent
      · exact hGone hSeen
      · rw [hPresent] at hAbsent
        cases hAbsent
    · exact .inl ⟨⟨h, .inl ⟨hPresent, .inr hSeen⟩⟩, by simp [hSeen, lower, note]⟩
  | false =>
    by_cases hSeen : sighting.observation = .present
    · cases hBuild : sighting.buildObjects with
      | error error =>
        refine .inr ⟨?_, by simp [hSeen]⟩
        rintro ⟨-, ⟨hRaised, -⟩ | ⟨-, -, objects, hObjects⟩⟩
        · rw [hPresent] at hRaised
          cases hRaised
        · rw [hBuild] at hObjects
          cases hObjects
      | ok objects =>
        refine .inl ⟨⟨h, .inr ⟨hPresent, hSeen, objects, hBuild⟩⟩, ?_⟩
        simp [hSeen, note, raise]
    · refine .inr ⟨?_, by simp [hSeen]⟩
      rintro ⟨-, ⟨hRaised, -⟩ | ⟨-, hPresentSeen, -⟩⟩
      · rw [hPresent] at hRaised
        cases hRaised
      · exact hSeen hPresentSeen

theorem Dated.visit (hDated : first.Dated takenAt) (hSighting : sighting.Dated takenAt)
    (h : sighting.Concerns first.kind) : (first.visit generation sighting).Dated takenAt := by
  intro hPresent
  rcases visit_cases generation h with ⟨-, hEvents, ⟨hAbsent, -⟩ | ⟨objects, -, hBuild, -, hToken⟩⟩ |
    ⟨hUntouched, hNote⟩
  · rw [hAbsent] at hPresent
    cases hPresent
  · exact ⟨_, hToken, by rw [hEvents, hSighting objects hBuild]⟩
  rw [hNote] at hPresent ⊢
  obtain ⟨objects, hToken, hEvents⟩ := hDated hPresent
  have hSame : ¬first.Moved sighting = true := fun hMoved =>
    hUntouched ⟨h, .inl ⟨hPresent, .inl hMoved⟩⟩
  rw [Moved, hEvents] at hSame
  have hCount : takenAt objects.content = sighting.reader.cardEvents := by simpa using hSame
  exact ⟨objects, hToken, by rw [hCount]; rfl⟩

theorem visit_takenAt (hDated : first.Dated takenAt) (hSighting : sighting.Dated takenAt)
    (h : sighting.Concerns first.kind) (hFits : first.Holds pin → first.Fits takenAt pin sighting)
    (hPin : ∀ entry, later = some entry → pin = some entry ∧ ¬first.Touched sighting)
    (hHolds : (first.visit generation sighting).Holds later) :
    sighting.observation = .present ∧
      (first.visit generation sighting).TakenAt takenAt later sighting.reader.cardEvents := by
  rcases visit_cases generation h with ⟨hTouched, -, hLeft⟩ | ⟨hUntouched, hNote⟩
  · have hNone : later = none := by
      cases hLater : later with
      | none => rfl
      | some entry => exact absurd hTouched (hPin entry hLater).2
    subst hNone
    rcases hLeft with ⟨hAbsent, hToken⟩ | ⟨objects, hSeen, hBuild, -, hToken⟩
    · simp [Holds, hAbsent, hToken] at hHolds
    refine ⟨hSeen, ?_, nofun⟩
    intro raised hRaised
    rw [hToken] at hRaised
    cases hRaised
    exact hSighting objects hBuild
  rw [hNote] at hHolds ⊢
  have hKept : ∀ entry, later = some entry → pin = some entry := fun entry hEntry =>
    (hPin entry hEntry).1
  have hFit := (hFits (Holds.mono hHolds hKept)).mono hKept
  unfold Fits at hFit
  split at hFit
  · -- The card reported is the one seen, and the PIN1 is of its count.
    rename_i hPresent
    obtain ⟨objects, hToken, hEvents⟩ := hDated hPresent
    have hSame : ¬first.Moved sighting = true := fun hMoved =>
      hUntouched ⟨h, .inl ⟨hPresent, .inl hMoved⟩⟩
    rw [Moved, hEvents] at hSame
    have hCount : takenAt objects.content = sighting.reader.cardEvents := by simpa using hSame
    refine ⟨?_, ?_, ?_⟩
    · by_contra hGone
      exact hUntouched ⟨h, .inl ⟨hPresent, .inr hGone⟩⟩
    · intro other hOther
      obtain rfl : objects = other := some.inj (hToken.symm.trans hOther)
      exact hCount
    · intro entry hEntry
      have hNoted := hFit entry hEntry
      rw [hEvents, hCount] at hNoted
      exact (some.inj hNoted).symm
  · rename_i hAbsent
    rcases hFit with hRaises | hTaken
    · exact absurd ⟨h, .inr ⟨by simpa using hAbsent, hRaises⟩⟩ hUntouched
    · exact hTaken

/-- The slot meets every later sighting as it would have met it before. -/
theorem visit_fits {other} (h : sighting.Concerns first.kind)
    (hFits : first.Holds pin → first.Fits takenAt pin other)
    (hPin : ∀ entry, later = some entry → pin = some entry ∧ ¬first.Touched sighting)
    (hTaken : (first.visit generation sighting).TakenAt takenAt later sighting.reader.cardEvents)
    (hHolds : (first.visit generation sighting).Holds later) :
    (first.visit generation sighting).Fits takenAt later other := by
  have hKept : ∀ entry, later = some entry → pin = some entry := fun entry hEntry =>
    (hPin entry hEntry).1
  have hEvents : (first.visit generation sighting).cardEvents =
      some sighting.reader.cardEvents := by
    rcases visit_cases generation h with ⟨-, hEvents, -⟩ | ⟨-, hNote⟩
    · exact hEvents
    · rw [hNote]
      rfl
  by_cases hPresent : (first.visit generation sighting).cardPresent = true
  · refine .of_present hPresent fun entry hEntry => ?_
    rw [hEvents, hTaken.2 entry hEntry]
  rcases visit_cases generation h with ⟨hTouched, -, ⟨-, hToken⟩ | ⟨-, -, -, hRaised, -⟩⟩ | ⟨-, hNote⟩
  · rcases hHolds with hP | hT | hL
    · exact absurd hP hPresent
    · rw [hToken] at hT
      cases hT
    · obtain ⟨entry, hEntry⟩ := isSome_iff_exists.mp hL
      exact absurd hTouched (hPin entry hEntry).2
  · exact absurd hRaised hPresent
  · rw [hNote] at hHolds hPresent ⊢
    have hFit := (hFits (Holds.mono hHolds hKept)).mono hKept
    have hAbsent : ¬first.cardPresent = true := hPresent
    rw [Fits, if_neg hAbsent] at hFit
    rw [Fits, if_neg hPresent]
    exact hFit

end SlotView

namespace Loaded
variable {module before after : Loaded Content} {takenAt}

variable {lastPin : Option CachedPin1} {sightings : List (Sighting Content)} {floor : Nat}

/-- A slot that has been through the sightings has nothing that none of them
accounts for, or no sighting told anything of its reader. -/
theorem Follows.accounted (h : Follows floor first pin sightings last lastPin)
    (hDated : first.Dated takenAt) (hSightings : ∀ sighting ∈ sightings, sighting.Dated takenAt)
    (hFits : first.Holds pin → ∀ sighting ∈ sightings, sighting.Concerns first.kind →
      first.Fits takenAt pin sighting) :
    (last.Holds lastPin → ∃ sighting ∈ sightings, sighting.Concerns first.kind ∧
      sighting.observation = .present ∧
      last.TakenAt takenAt lastPin sighting.reader.cardEvents) ∨
    ((∀ sighting ∈ sightings, ¬sighting.Concerns first.kind) ∧ last = first ∧
      ∀ entry, lastPin = some entry → pin = some entry) := by
  induction h with
  | done slotView pin => exact .inr ⟨by simp, rfl, fun _ h => h⟩
  | @seen first last pin later lastPin sighting rest generation hFloor hPin hRest ih =>
    have hKept : ∀ entry, later = some entry → pin = some entry := fun entry hEntry =>
      (hPin entry hEntry).1
    have hRestDated : ∀ sighting ∈ rest, sighting.Dated takenAt := fun sighting hSighting =>
      hSightings sighting (mem_cons_of_mem _ hSighting)
    by_cases hConcerns : sighting.Concerns first.kind
    · have hTaken (hHolds : (first.visit generation sighting).Holds later) :=
        visit_takenAt hDated (hSightings sighting (by simp)) hConcerns
          (fun hFirst => hFits hFirst sighting (by simp) hConcerns) hPin hHolds
      have hNext := ih (hDated.visit (hSightings sighting (by simp)) hConcerns) hRestDated (by
        intro hHolds other hOther hOtherConcerns
        rw [visit_kind] at hOtherConcerns
        exact visit_fits hConcerns (fun hFirst =>
          hFits hFirst other (mem_cons_of_mem _ hOther) hOtherConcerns) hPin
          (hTaken hHolds).2 hHolds)
      rw [visit_kind] at hNext
      rcases hNext with hNext | ⟨-, rfl, hLast⟩
      · refine .inl fun hHolds => ?_
        obtain ⟨found, hFound, hRight⟩ := hNext hHolds
        exact ⟨found, mem_cons_of_mem _ hFound, hRight⟩
      · refine .inl fun hHolds => ⟨sighting, by simp, hConcerns, ?_⟩
        obtain ⟨hSeen, hNow⟩ := hTaken (hHolds.mono hLast)
        exact ⟨hSeen, hNow.mono hLast⟩
    rw [visit_of_not_concerns hConcerns] at ih
    have hNext := ih hDated hRestDated (fun hHolds other hOther hOtherConcerns =>
      (hFits (hHolds.mono hKept) other (mem_cons_of_mem _ hOther) hOtherConcerns).mono hKept)
    rcases hNext with hNext | ⟨hNone, rfl, hLast⟩
    · refine .inl fun hHolds => ?_
      obtain ⟨found, hFound, hRight⟩ := hNext hHolds
      exact ⟨found, mem_cons_of_mem _ hFound, hRight⟩
    · exact .inr ⟨forall_mem_cons.mpr ⟨hConcerns, hNone⟩, rfl,
        fun entry hEntry => hKept entry (hLast entry hEntry)⟩

theorem Follows.kind_eq (h : Follows floor first pin sightings last lastPin) :
    last.kind = first.kind := by
  induction h with
  | done slotView pin => rfl
  | seen generation hFloor hPin hRest ih => rw [ih, visit_kind]

def viewOf (module : Loaded Content) (slot : SlotRecord) : SlotView Content :=
  ⟨slot.kind, slot.cardPresent, module.tokenCache.get? slot.id, module.eventReported.get? slot.id,
    module.cardEvents.get? slot.id⟩

variable (takenAt) in
/-- Each local slot with something of a card is bound to a reader that was
seen with that card, or that could not be looked at. -/
def Vouched (sightings : List (Sighting Content)) (module : Loaded Content) : Prop :=
  ∀ slot ∈ module.slots, slot.kind.isRemote = false →
    (module.viewOf slot).Holds (module.heldPin slot.id) →
    ∃ sighting ∈ sightings, (module.viewOf slot).VouchedBy takenAt (module.heldPin slot.id) sighting

variable (takenAt) in
/-- The reader of each local slot with something of a card is enumerated, and
fits the slot wherever it is. -/
def Tracked (sightings : List (Sighting Content)) (module : Loaded Content) : Prop :=
  ∀ slot ∈ module.slots, slot.kind.isRemote = false →
    (module.viewOf slot).Holds (module.heldPin slot.id) →
    (∃ sighting ∈ sightings, slot.kind.localReader = some sighting.reader.id) ∧
    ∀ sighting ∈ sightings, sighting.Concerns slot.kind →
      (module.viewOf slot).Fits takenAt (module.heldPin slot.id) sighting

variable (takenAt) in
def Dated (module : Loaded Content) : Prop :=
  ∀ index slotView, module.view index = some slotView → slotView.kind.isRemote = false →
    slotView.Dated takenAt

section
variable (hTable : Table before)
include hTable

theorem Dated.visit (hSighting : sighting.Dated takenAt)
    (hVisit : before.visit sighting = some after) (h : before.Dated takenAt) :
    after.Dated takenAt := by
  intro index last hLast hLocal
  cases hFirst : before.view index with
  | none =>
    obtain ⟨-, -, objects, hBuild, rfl⟩ := visit_new hTable hVisit hFirst hLast
    exact fun _ => ⟨_, rfl, by rw [hSighting objects hBuild]⟩
  | some first =>
    rw [visit_view hTable hVisit hFirst] at hLast
    cases hLast
    rw [visit_kind] at hLocal
    have hDated := h index first hFirst hLocal
    by_cases hConcerns : sighting.Concerns first.kind
    · exact hDated.visit hSighting hConcerns
    · rw [visit_of_not_concerns hConcerns]
      exact hDated

theorem Dated.visits (hSightings : ∀ sighting ∈ sightings, sighting.Dated takenAt)
    (hVisits : sightings.foldlM Loaded.visit before = some after) (h : before.Dated takenAt) :
    after.Dated takenAt := by
  induction sightings generalizing before with
  | nil =>
    cases hVisits
    exact h
  | cons sighting rest ih =>
    rw [foldlM_cons, bind_eq_bind, bind_eq_some_iff] at hVisits
    obtain ⟨next, hNext, hRest⟩ := hVisits
    exact ih ((visit_advances hNext).binds.table hTable)
      (fun other hOther => hSightings other (mem_cons_of_mem _ hOther)) hRest
      (h.visit hTable (hSightings sighting (by simp)) hNext)

/-- A slot that a refresh adds starts with the card that was read for it. -/
theorem visits_new (hSightings : ∀ sighting ∈ sightings, sighting.Dated takenAt)
    (h : sightings.foldlM visit before = some after) {index}
    (hNone : before.view index = none) (hPin : before.heldPin (index + 1) = none)
    (hLast : after.view index = some last) :
    ∃ sighting ∈ sightings, sighting.observation = .present ∧
      ∃ floor first rest, (∀ other ∈ rest, other ∈ sightings) ∧ first.cardPresent = true ∧
        first.kind = .atReader sighting.reader.id ∧ first.Dated takenAt ∧
        first.TakenAt takenAt none sighting.reader.cardEvents ∧
        Follows floor first none rest last (after.heldPin (index + 1)) := by
  induction sightings generalizing before with
  | nil =>
    cases h
    rw [hNone] at hLast
    cases hLast
  | cons sighting rest ih =>
    rw [foldlM_cons, bind_eq_bind, bind_eq_some_iff] at h
    obtain ⟨next, hNext, hRest⟩ := h
    have hTable' := (visit_advances hNext).binds.table hTable
    have hNextPin : next.heldPin (index + 1) = none := by
      cases hEntry : next.heldPin (index + 1) with
      | none => rfl
      | some entry =>
        have hOld := (lowers_closed before).visit hNext (fun _ _ h => h) _ _ hEntry
        rw [hPin] at hOld
        cases hOld
    cases hView : next.view index with
    | none =>
      obtain ⟨found, hFound, hSeen, floor, first, later, hLater, hRight⟩ := ih hTable'
        (fun other hOther => hSightings other (mem_cons_of_mem _ hOther)) hRest hView hNextPin
      exact ⟨found, mem_cons_of_mem _ hFound, hSeen, floor, first, later,
        fun other hOther => mem_cons_of_mem _ (hLater other hOther), hRight⟩
    | some first =>
      obtain ⟨-, hSeen, objects, hBuild, rfl⟩ := visit_new hTable hNext hNone hView
      have hCount := hSightings sighting (by simp) objects hBuild
      obtain ⟨other, hOther, hFollows⟩ := visits_follow hTable' hRest hView
      rw [hLast] at hOther
      cases hOther
      rw [hNextPin] at hFollows
      refine ⟨sighting, by simp, hSeen, _, _, rest, fun other => mem_cons_of_mem _, rfl, rfl,
        fun _ => ⟨_, rfl, by rw [hCount]⟩, ⟨?_, nofun⟩, hFollows⟩
      intro raised hRaised
      cases hRaised
      exact hCount

/-- Where its readers are tracked, a pass leaves every slot vouched for. -/
theorem visits_vouched (hOwned : Owned before)
    (hDated : before.Dated takenAt) (hSightings : ∀ sighting ∈ sightings, sighting.Dated takenAt)
    (h : sightings.foldlM visit before = some after)
    (hTracked : before.Tracked takenAt sightings) : after.Vouched takenAt sightings := by
  intro slot hSlot hLocal hHolds
  obtain ⟨index, hIndex⟩ := mem_iff_getElem?.mp hSlot
  have hTable' := ((advances_closed before).visits h (.refl before)).binds.table hTable
  have hId := hTable'.numbered index slot hIndex
  have hLast : after.view index = some (after.viewOf slot) := view_of_slot hIndex
  rw [hId] at hHolds ⊢
  cases hFirst : before.view index with
  | none =>
    have hPin : before.heldPin (index + 1) = none := by
      unfold heldPin
      cases hRef : before.pinCaches.get? (index + 1) with
      | none => rfl
      | some ref =>
        -- Only slots of the table have caches.
        obtain ⟨owner, hOwner, hOwnerId, -⟩ := hOwned _ ref hRef
        obtain ⟨position, hPosition⟩ := mem_iff_getElem?.mp hOwner
        have hNumber := hTable.numbered position owner hPosition
        obtain rfl : position = index := by omega
        rw [view_of_slot hPosition] at hFirst
        cases hFirst
    obtain ⟨sighting, hSighting, hSeen, floor, first, rest, hRest, hPresent, hKind, hFirstDated,
      hTaken, hFollows⟩ := visits_new hTable hSightings h hFirst hPin hLast
    have hReader {other : Sighting Content} (hOther : first.kind.localReader = some other.reader.id) :
        (after.viewOf slot).kind.localReader = some other.reader.id := by
      rw [hFollows.kind_eq, hOther]
    rcases hFollows.accounted hFirstDated (fun other hOther => hSightings other (hRest other hOther))
      (fun _ _ _ _ => .of_present hPresent nofun) with
      hFound | ⟨-, hSame, hPins⟩
    · obtain ⟨found, hFound, hConcerns, hThere⟩ := hFound hHolds
      exact ⟨found, hRest found hFound, hReader hConcerns.2, .inr hThere⟩
    · refine ⟨sighting, hSighting, hReader (by rw [hKind]; rfl), .inr ⟨hSeen, ?_⟩⟩
      rw [hSame]
      exact hTaken.mono hPins
  | some first =>
    obtain ⟨other, hOther, hFollows⟩ := visits_follow hTable h hFirst
    rw [hLast] at hOther
    cases hOther
    obtain ⟨old, hOld, rfl⟩ := view_eq_some hFirst
    have hOldId := hTable.numbered index old hOld
    have hKind : (after.viewOf slot).kind = old.kind := hFollows.kind_eq
    have hOldLocal : old.kind.isRemote = false := by
      rw [← hKind]
      exact hLocal
    have hOldTracked := hTracked old (mem_of_getElem? hOld) hOldLocal
    rw [hOldId] at hOldTracked
    rcases hFollows.accounted (hDated index _ hFirst hOldLocal) hSightings
      (fun hOldHolds => (hOldTracked hOldHolds).2) with hFound | ⟨hNone, hSame, hPins⟩
    · obtain ⟨found, hFound, hConcerns, hThere⟩ := hFound hHolds
      exact ⟨found, hFound, by rw [hKind]; exact hConcerns.2, .inr hThere⟩
    -- No sighting told anything of the reader, so the one there is could not.
    obtain ⟨⟨found, hFound, hReader⟩, -⟩ := hOldTracked ((hSame ▸ hHolds).mono hPins)
    refine ⟨found, hFound, by rw [hKind, hReader], .inl ?_⟩
    cases hSeen : found.observation with
    | temporarilyUnavailable => rfl
    | present | absent => exact absurd ⟨by rw [hSeen]; rfl, hReader⟩ (hNone found hFound)

end

theorem Dated.offers (hTable : Table before) {remoteTokenObjects offer}
    (hRefresh : before.refreshRemoteSlotsWith remoteTokenObjects offer = some after)
    (h : before.Dated takenAt) : after.Dated takenAt := by
  intro index last hLast
  refine offers_keep ?_ (fun _ _ hRemote _ hLocal => ?_) (fun _ hRemote _ hLocal => ?_) hTable hRefresh
    h hLast
  · intro slotView hAbsent _ hPresent
    rw [hAbsent] at hPresent
    cases hPresent
  -- The slot of a pairing is not a local one.
  all_goals
    rw [hRemote] at hLocal
    cases hLocal

/-- An operation that leaves the marks, the objects and the counts. -/
theorem Dated.of_eq (hSlots : after.slots = before.slots)
    (hTokens : after.tokenCache = before.tokenCache) (hEvents : after.cardEvents = before.cardEvents)
    (h : before.Dated takenAt) : after.Dated takenAt := by
  intro index last hLast hLocal
  obtain ⟨slot, hSlot, rfl⟩ := view_eq_some hLast
  rw [hSlots] at hSlot
  have hDated := h index _ (view_of_slot hSlot) hLocal
  rw [hTokens, hEvents]
  exact hDated

/-- Objects are read late only at a slot without any. -/
theorem Dated.ensureToken (id : CkSlotId)
    (build : Except CkRv (TokenObjects Content)) (h : before.Dated takenAt) :
    (before.ensureToken id build).2.Dated takenAt := by
  unfold Loaded.ensureToken
  split
  · exact h
  rename_i hNone
  split
  · exact h
  split
  · exact h
  split
  · exact h
  intro index last hLast hLocal hPresent
  obtain ⟨slot, hSlot, rfl⟩ := view_eq_some hLast
  obtain ⟨objects, hToken, hEvents⟩ := h index _ (view_of_slot hSlot) hLocal hPresent
  refine ⟨objects, ?_, hEvents⟩
  have hOther : slot.id ≠ id := by
    rintro rfl
    rw [hNone] at hToken
    cases hToken
  simpa [cacheToken, BTreeMap.get?_insert, hOther] using hToken

variable (takenAt) in
/-- Whatever a call's enumeration reads is dated by it. -/
def DatedRead : Except CkRv (List (Sighting Content)) → Prop
  | .error _ => True
  | .ok sightings => ∀ sighting ∈ sightings, sighting.Dated takenAt

theorem Dated.refreshSlotsWith (hTable : Table before) {enumeration result}
    (hRead : DatedRead takenAt enumeration)
    (hRefresh : before.refreshSlotsWith enumeration = some (result, after))
    (h : before.Dated takenAt) : after.Dated takenAt := by
  cases enumeration with
  | error error =>
    cases hRefresh
    exact h.of_eq rfl rfl rfl
  | ok sightings =>
    obtain ⟨next, hNext, hEq⟩ := map_eq_some_iff.mp hRefresh
    cases hEq
    exact h.visits hTable hRead hNext

variable (takenAt) in
def DatedCall : ModuleCall Content → Prop
  | .refreshSlots enumeration => DatedRead takenAt enumeration
  | _ => True

theorem Dated.step (hTable : Table before) {call reply} (hCall : DatedCall takenAt call)
    (hStep : before.step call = some (reply, after)) (h : before.Dated takenAt) :
    after.Dated takenAt := by
  cases call with
  | refreshSlots enumeration =>
    simp only [Loaded.step, bind_eq_bind, bind_eq_some_iff] at hStep
    obtain ⟨⟨result, next⟩, hNext, hEq⟩ := hStep
    cases hEq
    exact h.refreshSlotsWith hTable hCall hNext
  | refreshRemoteSlots remoteTokenObjects offer =>
    simp only [Loaded.step, bind_eq_bind, bind_eq_some_iff] at hStep
    obtain ⟨next, hNext, hEq⟩ := hStep
    cases hEq
    exact h.offers hTable hNext
  | takeSlotEvent =>
    cases hStep
    split
    · exact h
    · refine h.of_eq ?_ ?_ ?_ <;> rfl
  | ensureToken id build =>
    cases hStep
    exact h.ensureToken id build
  | pinCache id fingerprintKey =>
    cases hStep
    split
    · exact h
    split
    · exact h
    split
    · exact h
    · exact h.of_eq rfl rfl rfl
  | closeSession handle =>
    cases hStep
    split
    · exact h
    · unfold forgetLoginIfNoSessions
      split <;> exact h.of_eq rfl rfl rfl
  | openSession id | closeAllSessions id | setRemoteLoggedIn id loggedIn | logout id =>
    cases hStep
    exact h.of_eq rfl rfl rfl

end Loaded

open Loaded

section Runs
open Process
variable {takenAt} {mac : Mac} {kind : E → Apdu.TransportErrorKind} {process next : Process Content}

/-- The table a refresh starts from: that of the module, or the empty one that
`C_Initialize` refreshes first. -/
def Process.loaded (process : Process Content) : Loaded Content :=
  ⟨process.module.getD .blank, process.pins⟩

variable (takenAt) in
def Process.ProcessCall.Dated : ProcessCall Content E → Prop
  | .cInitialize enumeration _ => DatedRead takenAt enumeration
  | .ask call => DatedCall takenAt call
  | _ => True

theorem dated_blank (pins : PinStore) : (⟨.blank, pins⟩ : Loaded Content).Dated takenAt := by
  intro index slotView hView
  obtain ⟨slot, hSlot, -⟩ := view_eq_some hView
  simp [blank] at hSlot

theorem Process.Sound.loaded (h : Sound process) : process.loaded.Table ∧ process.loaded.Owned := by
  unfold Process.loaded
  cases hModule : process.module with
  | none =>
    refine ⟨.blank process.pins, ?_⟩
    intro id ref hRef
    simp [blank] at hRef
  | some module => exact h.module module hModule

variable {call : ProcessCall Content E}

theorem step_dated (hCall : call.Dated takenAt)
    (h : (Process.step mac kind (some process) call).2 = some next) (hSound : Sound process)
    (hDated : process.loaded.Dated takenAt) : next.loaded.Dated takenAt := by
  cases call with
  | cInitialize enumeration source =>
    simp only [Process.step] at h
    split at h
    · cases h
      exact hDated
    split at h
    · cases h
    rename_i started hStarted
    cases h
    simp only [Process.cInitialize, bind_eq_bind, bind_eq_some_iff] at hStarted
    obtain ⟨⟨result, refreshed⟩, hRefreshed, loaded, hLoaded, hNext⟩ := hStarted
    cases hNext
    have hTable := (refreshSlotsWith_advances hRefreshed).binds.table (.blank process.pins)
    have hFirst := (dated_blank process.pins).refreshSlotsWith (.blank process.pins) hCall
      hRefreshed
    cases source with
    | none =>
      cases hLoaded
      exact hFirst
    | some source => exact hFirst.offers hTable hLoaded
  | cFinalize =>
    simp only [Process.step] at h
    split at h
    · cases h
      exact hDated
    · cases h
      exact dated_blank _
  | ask call =>
    simp only [Process.step] at h
    split at h
    · cases h
      exact hDated
    rename_i module hModule
    split at h
    · cases h
    rename_i reply loaded hLoaded
    cases h
    unfold Process.loaded at hDated
    rw [hModule] at hDated
    exact hDated.step (hSound.module module hModule).1 hCall hLoaded
  | useCache ref use =>
    cases h
    exact hDated.of_eq rfl rfl rfl

variable {calls : List (ProcessCall Content E)}

theorem run_dated (hCalls : ∀ call ∈ calls, call.Dated takenAt) (hSound : Sound process)
    (hDated : process.loaded.Dated takenAt)
    (h : final (Process.step mac kind) (some process) calls = some next) :
    next.loaded.Dated takenAt := by
  induction calls generalizing process with
  | nil =>
    cases h
    exact hDated
  | cons call rest ih =>
    rw [final] at h
    cases hNext : (Process.step mac kind (some process) call).2 with
    | none =>
      rw [hNext, final_ended] at h
      cases h
    | some middle =>
      rw [hNext] at h
      exact ih (fun other hOther => hCalls other (mem_cons_of_mem _ hOther))
        (step_sound hNext hSound).1 (step_dated (hCalls call (by simp)) hNext hSound hDated) h

/-- Until it is finalised, a module keeps its slots. -/
theorem step_binds (hCall : call ≠ .cFinalize)
    (h : (Process.step mac kind (some process) call).2 = some next)
    (hModule : process.module.isSome = true) :
    next.module.isSome = true ∧ Binds process.loaded next.loaded := by
  obtain ⟨module, hModule⟩ := isSome_iff_exists.mp hModule
  have hSame : process.module.isSome = true ∧ Binds process.loaded process.loaded :=
    ⟨by rw [hModule]; rfl, .refl _⟩
  cases call with
  | cInitialize enumeration source =>
    simp only [Process.step, hModule] at h
    cases h
    exact hSame
  | cFinalize => exact absurd rfl hCall
  | ask call =>
    simp only [Process.step, hModule] at h
    split at h
    · cases h
    rename_i reply loaded hLoaded
    cases h
    unfold Process.loaded
    rw [hModule]
    exact ⟨rfl, (step_advances hLoaded).binds⟩
  | useCache ref use =>
    cases h
    exact ⟨hSame.1, .of_slots_eq rfl rfl⟩

theorem run_binds (hCalls : .cFinalize ∉ calls) (hModule : process.module.isSome = true)
    (h : final (Process.step mac kind) (some process) calls = some next) :
    Binds process.loaded next.loaded := by
  induction calls generalizing process with
  | nil =>
    cases h
    exact .refl _
  | cons call rest ih =>
    rw [mem_cons, not_or] at hCalls
    rw [final] at h
    cases hNext : (Process.step mac kind (some process) call).2 with
    | none =>
      rw [hNext, final_ended] at h
      cases h
    | some middle =>
      rw [hNext] at h
      obtain ⟨hMiddle, hBinds⟩ := step_binds (Ne.symm hCalls.1) hNext hModule
      exact hBinds.trans (ih hCalls.2 hMiddle h)

/-- In every run, a refresh that succeeds leaves each local slot with nothing
but what is of the card its reader was seen with, provided the readers of the
slots that had something were enumerated and fit. A slot keeps its number and
its device, and no other slot gets the number. -/
theorem slots_follow_readers (mac : Mac) (kind : E → Apdu.TransportErrorKind)
    (takenAt : Content → UInt32) (calls : List (ProcessCall Content E))
    (hCalls : ∀ call ∈ calls, call.Dated takenAt) (process : Process Content)
    (hRun : final (Process.step mac kind) (some .fresh) calls = some process) :
    (∀ sightings after, (∀ sighting ∈ sightings, sighting.Dated takenAt) →
      process.loaded.refreshSlotsWith (.ok sightings) = some (.ok (), after) →
      process.loaded.Tracked takenAt sightings → after.Vouched takenAt sightings) ∧
    (∀ later next, .cFinalize ∉ later →
      final (Process.step mac kind) (some process) later = some next →
      ∀ slot ∈ process.loaded.slots, ∃ kept ∈ next.loaded.slots, kept.id = slot.id ∧
        kept.kind.device = slot.kind.device ∧
        ∀ other ∈ next.loaded.slots, other.id = slot.id → other = kept) := by
  have hSound := (Sound.fresh.run hRun).1
  obtain ⟨hTable, hOwned⟩ := hSound.loaded
  refine ⟨?_, ?_⟩
  · intro sightings after hSightings hRefresh hTracked
    obtain ⟨next, hNext, hEq⟩ := map_eq_some_iff.mp hRefresh
    cases hEq
    exact visits_vouched hTable hOwned (run_dated hCalls .fresh (dated_blank _) hRun)
      hSightings hNext hTracked
  intro later next hLater hNext slot hSlot
  have hModule : process.module.isSome = true := by
    unfold Process.loaded at hSlot
    cases hNone : process.module with
    | none => simp [hNone, ModuleState.blank] at hSlot
    | some module => rfl
  obtain ⟨position, hPosition⟩ := mem_iff_getElem?.mp hSlot
  obtain ⟨kept, hKept, hId, hDevice⟩ := (run_binds hLater hModule hNext).kept position slot hPosition
  refine ⟨kept, mem_of_getElem? hKept, hId, hDevice, ?_⟩
  intro other hOther hOtherId
  -- Slots are numbered by their place.
  obtain ⟨place, hPlace⟩ := mem_iff_getElem?.mp hOther
  have hNumbered := (hSound.run hNext).1.loaded.1.numbered
  have hHere := hNumbered position kept hKept
  have hThere := hNumbered place other hPlace
  obtain rfl : position = place := by omega
  exact some.inj (hPlace.symm.trans hKept)

/-- The reader of a card that was raised is unplugged: the refresh does not see
it, and its slot still reports the card and has its objects. -/
theorem unplugged_reader_keeps_card : ∃ (process : Process Unit) (after : Loaded Unit),
    final (Process.step sampleMac (id : Apdu.TransportErrorKind → _)) (some .fresh)
      [.cInitialize (.ok [inserted]) none] = some process ∧
    process.loaded.refreshSlotsWith (.ok []) = some (.ok (), after) ∧
    (after.slot 1).any (·.cardPresent) = true ∧ (after.tokenCache.get? 1).isSome = true ∧
    ¬after.Vouched (fun _ => 0) [] := by
  refine ⟨_, _, rfl, rfl, rfl, rfl, ?_⟩
  intro hVouched
  obtain ⟨sighting, hSighting, -⟩ := hVouched _ (mem_singleton.mpr rfl) rfl (.inl rfl)
  exact not_mem_nil hSighting

theorem inserted_card_vouched : ∃ (process : Process Unit) (after : Loaded Unit),
    final (Process.step sampleMac (id : Apdu.TransportErrorKind → _)) (some .fresh)
      [.cInitialize (.ok [inserted]) none] = some process ∧
    process.loaded.refreshSlotsWith (.ok [inserted]) = some (.ok (), after) ∧
    (after.slot 1).any (·.cardPresent) = true ∧
    after.Vouched (fun _ => 0) [inserted] := by
  have hDated : ∀ sighting ∈ [inserted], sighting.Dated fun _ => 0 := by
    intro sighting hSighting objects _
    rw [mem_singleton.mp hSighting]
    rfl
  have hRun := slots_follow_readers sampleMac (id : Apdu.TransportErrorKind → _) (fun _ => 0)
    [.cInitialize (.ok [inserted]) none] (by
      intro call hCall
      rw [mem_singleton.mp hCall]
      exact hDated) _ rfl
  refine ⟨_, _, rfl, rfl, rfl, hRun.1 _ _ hDated rfl ?_⟩
  intro slot hSlot hLocal hHolds
  rw [mem_singleton.mp hSlot]
  refine ⟨⟨inserted, by simp, rfl⟩, ?_⟩
  exact fun _ _ _ => .of_present rfl nofun

end Runs

end RefineId.Pkcs11
