import RefineId.Rapp.Txt

/-! Session and withdrawn service records: what is published and what is
accepted (`crates/rapp/src/routing.rs`, `crates/rapp/src/withdrawal.rs`). -/
namespace RefineId.Rapp

open Data Txt List

def maxDiscoveryHints : Nat := 4

def txtModeSession : String := "session"

def txtHintsKey : String := "hints"

def withdrawnRecordEntries : Nat := 8

def txtModeWithdrawn : String := "withdrawn"

def txtWithdrawnKey : String := "withdrawn"

/-- What both kinds of record begin with: the version and the mode, before the
list is read. -/
def parseHeaded {ε α : Type} (mode listKey : String) (unexpectedKey wrongHeader : ε)
    (readList : Option String → Except ε α) (entries : List (String × String)) : Except ε α :=
  match values entries [versionKey, modeKey, listKey] with
  | some [found, named, list] =>
    if found ≠ some version ∨ named ≠ some mode then .error wrongHeader else readList list
  | _ => .error unexpectedKey

/-- A `mode=session` record, possibly without hints. -/
@[ext] structure DiscoveryRecord where
  hints : HintList maxDiscoveryHints
  deriving DecidableEq

inductive DiscoveryRecordError where
  | unexpectedKey
  | wrongHeader
  | malformedHints
  deriving DecidableEq

namespace DiscoveryRecord

def readHints : Option String → Except DiscoveryRecordError DiscoveryRecord
  | none => .ok ⟨⟨[], Nat.zero_le _⟩⟩
  | some list =>
    match decodeList list maxDiscoveryHints with
    | some hints => .ok ⟨hints⟩
    | none => .error .malformedHints

def parse : List (String × String) → Except DiscoveryRecordError DiscoveryRecord :=
  parseHeaded txtModeSession txtHintsKey .unexpectedKey .wrongHeader readHints

def txtEntries (record : DiscoveryRecord) : List (String × String) :=
  let header := [(versionKey, version), (modeKey, txtModeSession)]
  if record.hints.val = [] then header
  else header ++ [(txtHintsKey, encodeList record.hints.val)]

end DiscoveryRecord

inductive WithdrawalError where
  | degenerateAgreement
  | storageUnconfirmed
  | invalidInstanceName
  | randomUnavailable
  deriving DecidableEq

/-- A `mode=withdrawn` record: exactly eight entries, hints and fillers. -/
@[ext] structure WithdrawnRecord where
  entries : {entries : List Hint // entries.length = withdrawnRecordEntries}
  deriving DecidableEq

inductive WithdrawnRecordError where
  | unexpectedKey
  | wrongHeader
  | malformedEntries
  deriving DecidableEq

namespace WithdrawnRecord
variable {σ : Type}

/-- From position `index` on, each entry with the random key that places it:
the hint of that position, or a random filler. -/
def keyedEntries (random : StateT σ (Except WithdrawalError) Hint) (hints : List Hint) :
    (count index : Nat) →
      StateT σ (Except WithdrawalError) {keyed : List (Hint × Hint) // keyed.length = count}
  | 0, _ => pure ⟨[], rfl⟩
  | count + 1, index => do
      let order ← random
      let entry ← match hints[index]? with
        | some hint => pure hint
        | none => random
      let rest ← keyedEntries random hints count (index + 1)
      pure ⟨(order, entry) :: rest.val, by rw [length_cons, rest.property]⟩

def assemble (candidates : List AnnouncementCandidate)
    (random : StateT σ (Except WithdrawalError) Hint) :
    StateT σ (Except WithdrawalError) WithdrawnRecord := do
  let hints := mostRecentlyUsed candidates withdrawnRecordEntries
  let keyed ← keyedEntries random hints.val withdrawnRecordEntries 0
  -- entries with equal keys keep their order here; the source leaves it open
  let shuffled := keyed.val.insertionSort fun left right => left.1.val ≤ right.1.val
  pure ⟨shuffled.map Prod.snd, by
    rw [length_map, length_insertionSort, keyed.property]⟩

def readEntries : Option String → Except WithdrawnRecordError WithdrawnRecord
  | none => .error .wrongHeader
  | some list =>
    match decodeList list withdrawnRecordEntries with
    | some parsed =>
      if h : parsed.val.length = withdrawnRecordEntries then .ok ⟨⟨parsed.val, h⟩⟩
      else .error .malformedEntries
    | none => .error .malformedEntries

def parse : List (String × String) → Except WithdrawnRecordError WithdrawnRecord :=
  parseHeaded txtModeWithdrawn txtWithdrawnKey .unexpectedKey .wrongHeader readEntries

def txtEntries (record : WithdrawnRecord) : List (String × String) :=
  [(versionKey, version), (modeKey, txtModeWithdrawn),
    (txtWithdrawnKey, encodeList record.entries.val)]

end WithdrawnRecord

/-- The same key-value pairs, up to their order and the case of their keys. -/
def SameEntries (left right : List (String × String)) : Prop :=
  (left.map folded).Perm (right.map folded)

instance (left right : List (String × String)) : Decidable (SameEntries left right) :=
  inferInstanceAs (Decidable ((left.map folded).Perm (right.map folded)))

def txtValue (entries : List (String × String)) (key : String) : Option String :=
  valueOf (entries.map folded) (foldCase key)

variable {entries : List (String × String)} {list : Option String}

section Header
variable {mode listKey : String}

/-- What both records publish: the version, the mode and at most one list. -/
def headerEntries (mode listKey : String) (list : Option String) : List (String × String) :=
  (versionKey, version) :: (modeKey, mode) :: list.toList.map fun text => (listKey, text)

/-- Known keys only, each at most once, with the version and the mode of the
record. -/
structure WellHeaded (mode listKey : String) (entries : List (String × String)) : Prop where
  keyed : Keyed ([versionKey, modeKey, listKey].map foldCase) (entries.map folded)
  version : txtValue entries versionKey = some version
  mode : txtValue entries modeKey = some mode

section
variable (hKeys : ([versionKey, modeKey, listKey].map foldCase).Nodup)
include hKeys

theorem parseHeaded_eq_ok {ε α : Type} {unexpectedKey wrongHeader}
    {readList : Option String → Except ε α} {record : α} :
    parseHeaded mode listKey unexpectedKey wrongHeader readList entries = .ok record ↔
      WellHeaded mode listKey entries ∧ readList (txtValue entries listKey) = .ok record := by
  constructor
  · intro h
    rw [parseHeaded] at h
    split at h
    case h_1 found named list hValues =>
      obtain ⟨hKeyed, hSlots⟩ := (values_eq_some hKeys).mp hValues
      simp only [map_cons, map_nil, List.cons.injEq, and_true] at hSlots
      obtain ⟨rfl, rfl, rfl⟩ := hSlots
      split_ifs at h
      next hHeader =>
        simp only [ne_eq, not_or, not_not] at hHeader
        exact ⟨⟨hKeyed, hHeader.1, hHeader.2⟩, h⟩
    case h_2 => cases h
  · rintro ⟨hHeaded, hList⟩
    have hValues : values entries [versionKey, modeKey, listKey] =
        some [some version, some mode, txtValue entries listKey] := by
      rw [values_eq_some hKeys, ← hHeaded.version, ← hHeaded.mode]
      exact ⟨hHeaded.keyed, rfl⟩
    rw [parseHeaded, hValues]
    simpa using hList

theorem wellHeaded_iff_sameEntries :
    WellHeaded mode listKey entries ∧ txtValue entries listKey = list ↔
      SameEntries entries (headerEntries mode listKey list) := by
  have hBoth : WellHeaded mode listKey (headerEntries mode listKey list) ∧
      txtValue (headerEntries mode listKey list) listKey = list := by
    simp only [map_cons, map_nil, nodup_cons, mem_cons, not_mem_nil,
      or_false, not_or, not_false_eq_true, nodup_nil, and_true] at hKeys
    obtain ⟨⟨hMode, hVersion⟩, hList⟩ := hKeys
    cases list with
    | none | some text =>
      refine ⟨⟨⟨?_, ?_⟩, ?_, ?_⟩, ?_⟩ <;>
        simp [headerEntries, txtValue, folded, hMode, hVersion, hList, Ne.symm hMode,
          Ne.symm hVersion, Ne.symm hList]
  obtain ⟨hPublished, hList⟩ := hBoth
  constructor
  · rintro ⟨hGiven, hSame⟩
    rw [SameEntries, perm_iff_valueOf hGiven.keyed hPublished.keyed]
    intro key hKey
    simp only [map_cons, map_nil, mem_cons, not_mem_nil, or_false] at hKey
    rcases hKey with rfl | rfl | rfl
    · exact hGiven.version.trans hPublished.version.symm
    · exact hGiven.mode.trans hPublished.mode.symm
    · exact hSame.trans hList.symm
  · intro hPerm
    have hKeyed := hPublished.keyed.perm hPerm.symm
    have hValue := (perm_iff_valueOf hKeyed hPublished.keyed).mp hPerm
    refine ⟨⟨hKeyed, ?_, ?_⟩, ?_⟩
    · exact (hValue _ (by simp)).trans hPublished.version
    · exact (hValue _ (by simp)).trans hPublished.mode
    · exact (hValue _ (by simp)).trans hList

end

end Header

theorem discovery_keys_nodup : ([versionKey, modeKey, txtHintsKey].map foldCase).Nodup := by
  decide

theorem withdrawn_keys_nodup : ([versionKey, modeKey, txtWithdrawnKey].map foldCase).Nodup := by
  decide

/-- The hint list as published; none without hints. -/
def DiscoveryRecord.hintText (record : DiscoveryRecord) : Option String :=
  if record.hints.val = [] then none else some (encodeList record.hints.val)

theorem DiscoveryRecord.txtEntries_eq (record : DiscoveryRecord) :
    record.txtEntries = headerEntries txtModeSession txtHintsKey record.hintText := by
  by_cases hHints : record.hints.val = [] <;> simp [txtEntries, headerEntries, hintText, hHints]

theorem WithdrawnRecord.txtEntries_eq (record : WithdrawnRecord) : record.txtEntries =
      headerEntries txtModeWithdrawn txtWithdrawnKey (some (encodeList record.entries.val)) :=
  rfl

variable {record : DiscoveryRecord}

theorem DiscoveryRecord.readHints_eq_ok : readHints list = .ok record ↔ list = record.hintText := by
  cases list with
  | none =>
    simp [readHints, hintText, DiscoveryRecord.ext_iff, Subtype.ext_iff, eq_comm]
  | some list =>
    have hRead : readHints (some list) = .ok record ↔
        decodeList list maxDiscoveryHints = some record.hints := by
      rw [readHints]
      cases decodeList list maxDiscoveryHints <;> simp [DiscoveryRecord.ext_iff]
    rw [hRead, decodeList_eq_some, hintText]
    by_cases hHints : record.hints.val = [] <;> simp [hHints]

theorem WithdrawnRecord.readEntries_eq_ok {record} :
    readEntries list = .ok record ↔ list = some (encodeList record.entries.val) := by
  cases list with
  | none => simp [readEntries]
  | some list =>
    rw [Option.some.injEq]
    constructor
    · intro h
      rw [readEntries] at h
      split at h
      next parsed hParsed =>
        split at h
        · cases h
          exact (decodeList_eq_some.mp hParsed).1
        · cases h
      next => cases h
    rintro rfl
    have hSome : record.entries.val ≠ [] := by
      intro hEmpty
      have hLength := record.entries.property
      rw [hEmpty] at hLength
      cases hLength
    have hDecoded : decodeList (encodeList record.entries.val) withdrawnRecordEntries =
        some ⟨record.entries.val, record.entries.property.le⟩ :=
      decodeList_eq_some.mpr ⟨rfl, hSome⟩
    rw [readEntries, hDecoded]
    exact dif_pos record.entries.property

theorem DiscoveryRecord.parse_eq_ok :
    parse entries = .ok record ↔ SameEntries entries record.txtEntries := by
  rw [parse, parseHeaded_eq_ok discovery_keys_nodup, readHints_eq_ok,
    wellHeaded_iff_sameEntries discovery_keys_nodup, txtEntries_eq]

theorem WithdrawnRecord.parse_eq_ok {record : WithdrawnRecord} :
    parse entries = .ok record ↔ SameEntries entries record.txtEntries := by
  rw [parse, parseHeaded_eq_ok withdrawn_keys_nodup, readEntries_eq_ok,
    wellHeaded_iff_sameEntries withdrawn_keys_nodup, txtEntries_eq]

/-- Accepted as a session record: a good header and, when there is a list, one
to four entries. -/
theorem DiscoveryRecord.accepted_iff : (∃ record, parse entries = .ok record) ↔
      WellHeaded txtModeSession txtHintsKey entries ∧
        ∀ list, txtValue entries txtHintsKey = some list →
          HintListText 1 maxDiscoveryHints list := by
  simp only [parse, parseHeaded_eq_ok discovery_keys_nodup, readHints_eq_ok, exists_and_left]
  refine and_congr_right fun _ => ?_
  cases txtValue entries txtHintsKey with
  | none =>
    have hNone : ∃ record : DiscoveryRecord, none = record.hintText :=
      ⟨⟨⟨[], Nat.zero_le _⟩⟩, rfl⟩
    simpa using hNone
  | some list =>
    simp only [Option.some.injEq, forall_eq', hintListText_iff]
    constructor
    · rintro ⟨record, hList⟩
      rw [hintText] at hList
      split at hList
      next => cases hList
      next hSome =>
        exact ⟨record.hints.val, Option.some.inj hList,
          length_pos_iff.mpr hSome, record.hints.property⟩
    · rintro ⟨hints, rfl, hSome, hMost⟩
      refine ⟨⟨⟨hints, hMost⟩⟩, ?_⟩
      rw [hintText, if_neg (length_pos_iff.mp hSome)]

/-- Accepted as a withdrawn record: a good header and a list of eight entries. -/
theorem WithdrawnRecord.accepted_iff : (∃ record, parse entries = .ok record) ↔
      WellHeaded txtModeWithdrawn txtWithdrawnKey entries ∧
        ∃ list, txtValue entries txtWithdrawnKey = some list ∧
          HintListText withdrawnRecordEntries withdrawnRecordEntries list := by
  simp only [parse, parseHeaded_eq_ok withdrawn_keys_nodup, readEntries_eq_ok, exists_and_left,
    hintListText_iff]
  refine and_congr_right fun _ => ?_
  constructor
  · rintro ⟨record, hList⟩
    exact ⟨_, hList, record.entries.val, rfl, record.entries.property.ge,
      record.entries.property.le⟩
  · rintro ⟨_, hList, entries, rfl, hLeast, hMost⟩
    exact ⟨⟨⟨entries, le_antisymm hMost hLeast⟩⟩, hList⟩

/-- Every record is read back from its own entries in any order and key case,
and from nothing else, so what was read is what would be published again. The
entries accepted are the well-headed ones whose hint list has one to four
entries in a session record, if it is there, and eight in a withdrawn one. -/
theorem txt_records_faithful : (∀ (record : DiscoveryRecord) (entries : List (String × String)),
      DiscoveryRecord.parse entries = .ok record ↔ SameEntries entries record.txtEntries) ∧
    (∀ (record : WithdrawnRecord) (entries : List (String × String)),
      WithdrawnRecord.parse entries = .ok record ↔ SameEntries entries record.txtEntries) ∧
    (∀ entries : List (String × String), (∃ record, DiscoveryRecord.parse entries = .ok record) ↔
        WellHeaded txtModeSession txtHintsKey entries ∧
          ∀ list, txtValue entries txtHintsKey = some list →
            HintListText 1 maxDiscoveryHints list) ∧
    ∀ entries : List (String × String), (∃ record, WithdrawnRecord.parse entries = .ok record) ↔
        WellHeaded txtModeWithdrawn txtWithdrawnKey entries ∧
          ∃ list, txtValue entries txtWithdrawnKey = some list ∧
            HintListText withdrawnRecordEntries withdrawnRecordEntries list :=
  ⟨fun _ _ => DiscoveryRecord.parse_eq_ok, fun _ _ => WithdrawnRecord.parse_eq_ok,
    fun _ => DiscoveryRecord.accepted_iff, fun _ => WithdrawnRecord.accepted_iff⟩

/-- A session record needs no hint list. -/
theorem DiscoveryRecord.accepted_without_hints :
    parse [("v", "1"), ("mode", "session")] = .ok ⟨⟨[], Nat.zero_le _⟩⟩ ∧
      txtValue [("v", "1"), ("mode", "session")] txtHintsKey = none := by
  decide

instance : Std.Total AnnouncementCandidate.Precedes where
  total left right := by
    have hHint := List.le_total left.hint.val right.hint.val
    grind [AnnouncementCandidate.Precedes]

instance : IsTrans AnnouncementCandidate AnnouncementCandidate.Precedes where
  trans first second third := by
    have hHint := @List.le_trans _ _ _ _ _ first.hint.val second.hint.val third.hint.val
    grind [AnnouncementCandidate.Precedes]

/-- A candidate is taken if with it no more were used as late. -/
theorem hint_mem_mostRecentlyUsed {candidates limit candidate} (hCandidate : candidate ∈ candidates)
    (hRecent : candidates.countP (candidate.lastUsedMs ≤ ·.lastUsedMs) ≤ limit) :
    candidate.hint ∈ (mostRecentlyUsed candidates limit).val := by
  have hPerm := perm_insertionSort AnnouncementCandidate.Precedes candidates
  have hSorted := pairwise_insertionSort AnnouncementCandidate.Precedes candidates
  rw [← hPerm.countP_eq] at hRecent
  rw [← hPerm.mem_iff] at hCandidate
  rw [← take_append_drop limit (insertionSort _ candidates)] at hCandidate hRecent hSorted
  rw [countP_append] at hRecent
  refine mem_map_of_mem ((mem_append.mp hCandidate).resolve_right fun hLeft => ?_)
  -- Otherwise all that are taken, and this one, were used as late.
  have hTaken : countP _ (take limit _) = _ := countP_eq_length.mpr fun taken hTaken =>
    decide_eq_true (((pairwise_append.mp hSorted).2.2 taken hTaken candidate hLeft).elim
      UInt64.le_of_lt fun h => UInt64.le_of_eq h.1.symm)
  have hOwn : 0 < countP (fun other : AnnouncementCandidate =>
      candidate.lastUsedMs ≤ other.lastUsedMs) (drop limit _) :=
    countP_pos_iff.mpr ⟨candidate, hLeft, decide_eq_true (UInt64.le_refl _)⟩
  have hLong := length_pos_of_mem hLeft
  rw [hTaken, length_take] at hRecent
  rw [length_drop] at hLong
  omega

namespace WithdrawnRecord
variable {σ : Type} {random : StateT σ (Except WithdrawalError) Hint} {state after : σ}

theorem keyedEntries_hints {hints count index keyed}
    (h : keyedEntries random hints count index state = .ok (keyed, after)) :
    (hints.drop index).take count ⊆ keyed.val.map Prod.snd := by
  induction count generalizing index state with
  | zero => simp
  | succ count ih =>
    rcases Nat.lt_or_ge index hints.length with hIndex | hIndex
    · obtain ⟨order, _, -, h⟩ := stateT_bind_eq_ok.mp h
      simp only [getElem?_eq_getElem hIndex, pure_bind] at h
      obtain ⟨rest, _, hRest, h⟩ := stateT_bind_eq_ok.mp h
      cases h
      rw [drop_eq_getElem_cons hIndex]
      exact cons_subset_cons _ (ih hRest)
    · simp [drop_eq_nil_of_le hIndex]

/-- Whatever is drawn at random, a peer that reads the published entries finds
the hint of each pairing that, itself included, at most eight are as recent as. -/
theorem recent_hints_withdrawn {candidates record}
    (h : assemble candidates random state = .ok (record, after))
    (hEntries : SameEntries entries record.txtEntries) : ∃ read, parse entries = .ok read ∧
      ∀ candidate ∈ candidates,
        candidates.countP (candidate.lastUsedMs ≤ ·.lastUsedMs) ≤ withdrawnRecordEntries →
        candidate.hint ∈ read.entries.val := by
  refine ⟨record, parse_eq_ok.mpr hEntries, fun candidate hCandidate hRecent => ?_⟩
  obtain ⟨keyed, _, hKeyed, h⟩ := stateT_bind_eq_ok.mp h
  cases h
  refine ((perm_insertionSort _ _).map Prod.snd).mem_iff.mpr (keyedEntries_hints hKeyed ?_)
  rw [drop_zero, take_of_length_le (mostRecentlyUsed _ _).property]
  exact hint_mem_mostRecentlyUsed hCandidate hRecent

/-- Nine pairings, used one after another: the entries of the last eight are read. -/
theorem recent_hints_withdrawn_nine :
    let candidates : List AnnouncementCandidate := (List.range 9).map fun turn =>
      ⟨.replicate 8 (UInt8.ofNat turn), UInt64.ofNat turn⟩
    ∃ record read, assemble candidates (fun _ => .ok (.replicate 8 0, ())) () = .ok (record, ()) ∧
      parse record.txtEntries.reverse = .ok read ∧
      ∀ candidate ∈ candidates.drop 1, candidate.hint ∈ read.entries.val := by
  intro candidates
  obtain ⟨read, hRead, hHints⟩ := @recent_hints_withdrawn _ Unit
    (fun _ => .ok (.replicate 8 0, ())) () () candidates _ rfl ((reverse_perm _).map _)
  refine ⟨_, read, rfl, hRead, fun candidate hCandidate => hHints _ (mem_of_mem_drop hCandidate) ?_⟩
  revert candidate
  decide +kernel

end WithdrawnRecord

end RefineId.Rapp
