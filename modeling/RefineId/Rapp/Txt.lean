import RefineId.Data.Result
import RefineId.Data.Slots
import RefineId.Data.Text
import Mathlib.Data.List.Sort
import Mathlib.Data.Set.List

/-! Conventions shared by the discovery and withdrawn service records: keys
compare without case, hint lists are lowercase hexadecimal
(`crates/rapp/src/txt.rs`). -/
namespace RefineId.Rapp.Txt

open Data List Option UInt8

def hintSize : Nat := 8

abbrev Hint := FixedBytes hintSize

def versionKey : String := "v"

def version : String := "1"

def modeKey : String := "mode"

def entrySeparator : String := ","

def separatorByte : UInt8 := 0x2c

def hexDigitsPerByte : Nat := 2

def entryHexDigits : Nat := hintSize * hexDigitsPerByte

/-- The codes of `0123456789abcdef`. -/
def hexDigits : Bytes :=
  [0x30, 0x31, 0x32, 0x33, 0x34, 0x35, 0x36, 0x37, 0x38, 0x39, 0x61, 0x62, 0x63, 0x64, 0x65, 0x66]

def nibbleBits : UInt8 := 4

def nibbleMask : UInt8 := 0x0f

/-- At most so many hints. -/
abbrev HintList (maximum : Nat) := {hints : List Hint // hints.length ≤ maximum}

structure AnnouncementCandidate where
  hint : Hint
  lastUsedMs : UInt64
  deriving DecidableEq

/-- The more recently used candidate comes first, then the lower hint. -/
def AnnouncementCandidate.Precedes (left right : AnnouncementCandidate) : Prop :=
  right.lastUsedMs < left.lastUsedMs ∨
    (left.lastUsedMs = right.lastUsedMs ∧ left.hint.val ≤ right.hint.val)

instance : DecidableRel AnnouncementCandidate.Precedes := fun left right =>
  inferInstanceAs (Decidable (right.lastUsedMs < left.lastUsedMs ∨
    (left.lastUsedMs = right.lastUsedMs ∧ left.hint.val ≤ right.hint.val)))

def mostRecentlyUsed (candidates : List AnnouncementCandidate) (limit : Nat) : HintList limit :=
  ⟨((candidates.insertionSort AnnouncementCandidate.Precedes).take limit).map (·.hint), by simp⟩

variable (entries : List (String × String))

/-- The values of `keys`, in that order. A repeated or unknown key is refused. -/
def values (keys : List String) : Option (List (Option String)) :=
  entries.foldlM (fun slots entry => do
    let index ← keys.findIdx? fun known => eqIgnoreAsciiCase known entry.1
    let slot ← slots[index]?
    if slot.isSome then none else some (slots.set index (some entry.2)))
    (replicate keys.length none)

def hexDigit (value : UInt8) : UInt8 :=
  hexDigits.getD value.toNat 0

variable (byte : UInt8)

def hexPair : UInt8 × UInt8 :=
  (hexDigit (byte >>> nibbleBits), hexDigit (byte &&& nibbleMask))

/-- The digits of `bytes`, two for each. -/
def hexBytes (bytes : Bytes) : Bytes :=
  bytes.flatMap fun byte => [(hexPair byte).1, (hexPair byte).2]

def lowerHex (bytes : Bytes) : String :=
  String.ofList ((hexBytes bytes).map charFrom)

def encodeEntry (entry : Hint) : String :=
  lowerHex entry.val

def encodeList (entries : List Hint) : String :=
  joinWith entrySeparator (entries.map encodeEntry)

def nibble (digit : UInt8) : Option UInt8 := do
  let position ← hexDigits.findIdx? (· = digit)
  if position < 256 then some (UInt8.ofNat position) else none

/-- Consecutive pairs; an odd last byte is left out. -/
def pairs : Bytes → List (UInt8 × UInt8)
  | high :: low :: rest => (high, low) :: pairs rest
  | _ => []

def decodePair (pair : UInt8 × UInt8) : Option UInt8 := do
  let high ← nibble pair.1
  let low ← nibble pair.2
  some (high <<< nibbleBits ||| low)

def decodeEntry (text : Bytes) : Option Hint := do
  if text.length ≠ entryHexDigits then none
  let entry ← (pairs text).mapM decodePair
  FixedBytes.ofSlice? hintSize entry

/-- The list is split at the separator's byte, which is part of no other
character. -/
def decodeList (list : String) (maximum : Nat) : Option (HintList maximum) := do
  let entries ← ((asBytes list).splitOn separatorByte).mapM decodeEntry
  if h : entries.length ≤ maximum then some ⟨entries, h⟩ else none

/-- An entry as it is compared: the case of the key does not count. -/
def folded (entry : String × String) : Bytes × String :=
  (foldCase entry.1, entry.2)

theorem values_eq_fillSlots (keys : List String) :
    values entries keys =
      fillSlots (keys.map foldCase) (entries.map folded) (replicate keys.length none) := by
  rw [values]
  generalize replicate keys.length none = slots
  induction entries generalizing slots with
  | nil => rfl
  | cons entry rest ih =>
    have hIndex : (keys.map foldCase).findIdx? (· = foldCase entry.1) =
        keys.findIdx? fun known => eqIgnoreAsciiCase known entry.1 :=
      findIdx?_map
    rw [foldlM_cons, map_cons, folded, fillSlots, hIndex]
    simp only [bind_eq_bind, bind_assoc]
    congr 1
    funext index
    congr 1
    funext slot
    split
    · rfl
    · exact ih _

/-- Values are collected from known keys that occur once. -/
theorem values_eq_some {entries keys} (hKeys : (keys.map foldCase).Nodup) {slots} :
    values entries keys = some slots ↔ Keyed (keys.map foldCase) (entries.map folded) ∧
        slots = keys.map fun key => valueOf (entries.map folded) (foldCase key) := by
  rw [values_eq_fillSlots, ← List.length_map (f := foldCase), ← List.map_const',
    fillSlots_map hKeys]
  simp [Function.comp_def]

theorem nibble_hexDigit {value} (h : value < 16) : nibble (hexDigit value) = some value :=
  forall_byte_lt (P := fun value => nibble (hexDigit value) = some value) (by decide)
    (lt_iff_toNat_lt.mp h)

variable {digit : UInt8}

theorem nibble_sound {value} (h : nibble digit = some value) :
    value < 16 ∧ digit = hexDigit value := by
  simp only [nibble, bind_eq_bind, bind_eq_some_iff] at h
  obtain ⟨position, hPosition, hValue⟩ := h
  obtain ⟨hLt, hDigit, -⟩ := findIdx?_eq_some_iff_getElem.mp hPosition
  have hPositionLt : position < 16 := hLt
  rw [if_pos (hPositionLt.trans (by decide)), some.injEq] at hValue
  have hToNat : value.toNat = position := by
    rw [← hValue, toNat_ofNat']
    omega
  refine ⟨lt_iff_toNat_lt.mpr (hToNat ▸ hPositionLt), ?_⟩
  rw [hexDigit, hToNat, getD_eq_getElem?_getD, getElem?_eq_getElem hLt]
  exact (of_decide_eq_true hDigit).symm

theorem decodePair_hexPair : decodePair (hexPair byte) = some byte := by
  have hHalves : byte >>> nibbleBits < 16 ∧ byte &&& nibbleMask < 16 ∧
      (byte >>> nibbleBits) <<< nibbleBits ||| (byte &&& nibbleMask) = byte :=
    forall_byte (P := fun byte => byte >>> nibbleBits < 16 ∧ byte &&& nibbleMask < 16 ∧
      (byte >>> nibbleBits) <<< nibbleBits ||| (byte &&& nibbleMask) = byte)
      (by decide +kernel) byte
  obtain ⟨hHigh, hLow, hJoin⟩ := hHalves
  simp only [decodePair, hexPair, nibble_hexDigit hHigh, nibble_hexDigit hLow, bind_eq_bind,
    bind_some, hJoin]

theorem hexPair_of_nibbles {high low} (hHigh : high < 16) (hLow : low < 16) :
    hexPair (high <<< nibbleBits ||| low) = (hexDigit high, hexDigit low) := by
  have hAll : ∀ high < 16, ∀ low < 16,
      hexPair (UInt8.ofNat high <<< nibbleBits ||| UInt8.ofNat low) =
        (hexDigit (UInt8.ofNat high), hexDigit (UInt8.ofNat low)) := by
    decide +kernel
  have hPair := hAll high.toNat (UInt8.lt_iff_toNat_lt.mp hHigh) low.toNat
    (UInt8.lt_iff_toNat_lt.mp hLow)
  rwa [UInt8.ofNat_toNat, UInt8.ofNat_toNat] at hPair

theorem decodePair_eq_some {pair byte} : decodePair pair = some byte ↔ pair = hexPair byte := by
  constructor
  · intro h
    simp only [decodePair, bind_eq_bind, bind_eq_some_iff, some.injEq] at h
    obtain ⟨high, hHigh, low, hLow, rfl⟩ := h
    obtain ⟨hHighLt, hHigh⟩ := nibble_sound hHigh
    obtain ⟨hLowLt, hLow⟩ := nibble_sound hLow
    rw [hexPair_of_nibbles hHighLt hLowLt, ← hHigh, ← hLow]
  · rintro rfl
    exact decodePair_hexPair byte

theorem hexBytes_cons (rest : Bytes) :
    hexBytes (byte :: rest) = (hexPair byte).1 :: (hexPair byte).2 :: hexBytes rest :=
  rfl

theorem pairs_hexBytes (bytes : Bytes) : pairs (hexBytes bytes) = bytes.map hexPair := by
  induction bytes with
  | nil => rfl
  | cons byte rest ih =>
    rw [map_cons, ← ih]
    rfl

@[simp] theorem hexBytes_length (bytes : Bytes) :
    (hexBytes bytes).length = bytes.length * hexDigitsPerByte := by
  simp [hexBytes, hexDigitsPerByte]

variable {text bytes : Bytes} {count : Nat}

theorem hexBytes_of_pairs (hLength : text.length = count * hexDigitsPerByte)
    (hPairs : pairs text = bytes.map hexPair) : text = hexBytes bytes := by
  induction count generalizing text bytes with
  | zero =>
    obtain rfl := length_eq_zero_iff.mp (hLength.trans (Nat.zero_mul _))
    obtain rfl := map_eq_nil_iff.mp hPairs.symm
    rfl
  | succ count ih =>
    match text, hLength with
    | high :: low :: rest, hLength =>
      obtain ⟨byte, others, rfl, hPair, hRest⟩ := map_eq_cons_iff.mp hPairs.symm
      have hLengthRest : rest.length = count * hexDigitsPerByte := by
        simp [hexDigitsPerByte] at hLength ⊢
        omega
      rw [ih hLengthRest hRest.symm]
      rw [hexBytes_cons, hPair]
    | [_], hLength => simp [hexDigitsPerByte] at hLength; omega
    | [], hLength => simp [hexDigitsPerByte] at hLength

theorem decodeEntry_eq_some {entry} :
    decodeEntry text = some entry ↔ text = hexBytes entry.val := by
  constructor
  · intro h
    by_cases hLength : text.length = entryHexDigits
    · simp only [decodeEntry, hLength, ne_eq, not_true_eq_false, if_false, bind_eq_bind,
        bind_eq_some_iff, FixedBytes.ofSlice?_eq_some] at h
      obtain ⟨-, hBytes, rfl⟩ := h
      exact hexBytes_of_pairs hLength ((mapM_eq_some decodePair_eq_some).mp hBytes)
    · simp [decodeEntry, hLength] at h
  · rintro rfl
    have hBytes : (pairs (hexBytes entry.val)).mapM decodePair = some entry.val :=
      (mapM_eq_some decodePair_eq_some).mpr (pairs_hexBytes entry.val)
    have hLength : (hexBytes entry.val).length = entryHexDigits := by
      simp [entryHexDigits]
    simp [decodeEntry, hLength, hBytes]

def LowerHexDigit (digit : UInt8) : Prop :=
  (0x30 ≤ digit ∧ digit ≤ 0x39) ∨ (0x61 ≤ digit ∧ digit ≤ 0x66)

instance : DecidablePred LowerHexDigit := fun digit =>
  inferInstanceAs (Decidable ((0x30 ≤ digit ∧ digit ≤ 0x39) ∨ (0x61 ≤ digit ∧ digit ≤ 0x66)))

theorem lowerHexDigit_iff : LowerHexDigit digit ↔ ∃ value, nibble digit = some value := by
  rw [← isSome_iff_exists]
  exact forall_byte (P := fun digit => LowerHexDigit digit ↔ (nibble digit).isSome)
    (by decide +kernel) digit

theorem LowerHexDigit.ascii (h : LowerHexDigit digit) : digit < 128 ∧ digit ≠ separatorByte :=
  forall_byte (P := fun digit => LowerHexDigit digit → digit < 128 ∧ digit ≠ separatorByte)
    (by decide +kernel) digit h

theorem lowerHexDigit_of_mem (h : digit ∈ hexBytes bytes) : LowerHexDigit digit := by
  obtain ⟨byte, -, hDigit⟩ := mem_flatMap.mp h
  have hByte := decodePair_hexPair byte
  simp only [decodePair, bind_eq_bind, bind_eq_some_iff] at hByte
  obtain ⟨high, hHigh, low, hLow, -⟩ := hByte
  rcases mem_pair.mp hDigit with rfl | rfl
  · exact lowerHexDigit_iff.mpr ⟨high, hHigh⟩
  · exact lowerHexDigit_iff.mpr ⟨low, hLow⟩

theorem asBytes_lowerHex (bytes : Bytes) : asBytes (lowerHex bytes) = hexBytes bytes :=
  asBytes_ofList_charFrom fun _ hMem => (lowerHexDigit_of_mem hMem).ascii.1

theorem hexBytes_injective : Function.Injective hexBytes := by
  intro left right h
  have hPairs := congrArg pairs h
  rw [pairs_hexBytes, pairs_hexBytes] at hPairs
  refine map_injective_iff.mpr (fun byte other hPair => ?_) hPairs
  have hDecoded := congrArg decodePair hPair
  rw [decodePair_hexPair, decodePair_hexPair] at hDecoded
  exact some.inj hDecoded

theorem asBytes_encodeList (entries : List Hint) : asBytes (encodeList entries) =
      [separatorByte].intercalate (entries.map fun entry => hexBytes entry.val) := by
  have hSeparator : asBytes entrySeparator = [separatorByte] := by decide
  rw [encodeList, asBytes_joinWith, hSeparator, List.map_map]
  congr 1
  exact List.map_congr_left fun entry _ => asBytes_lowerHex entry.val

/-- A list is read exactly from its own text, and no list is empty. -/
theorem decodeList_eq_some {list maximum entries} :
    decodeList list maximum = some entries ↔ list = encodeList entries.val ∧ entries.val ≠ [] := by
  have hSplit : decodeList list maximum = some entries ↔ (asBytes list).splitOn separatorByte =
        entries.val.map fun entry => hexBytes entry.val := by
    rw [← mapM_eq_some decodeEntry_eq_some, decodeList, bind_eq_bind, bind_eq_some_iff]
    constructor
    · rintro ⟨found, hFound, h⟩
      split at h
      · cases h
        exact hFound
      · cases h
    · intro hFound
      exact ⟨entries.val, hFound, dif_pos entries.property⟩
  rw [hSplit]
  constructor
  · intro h
    constructor
    · apply asBytes_injective
      rw [asBytes_encodeList, ← h, intercalate_splitOn]
    · intro hEmpty
      rw [hEmpty] at h
      exact splitOn_ne_nil _ _ h
  · rintro ⟨rfl, hSome⟩
    rw [asBytes_encodeList]
    apply splitOn_intercalate
    · intro piece hPiece hMem
      obtain ⟨entry, -, rfl⟩ := mem_map.mp hPiece
      exact (lowerHexDigit_of_mem hMem).ascii.2 rfl
    · exact fun hEmpty => hSome (map_eq_nil_iff.mp hEmpty)

/-- From `least` to `most` entries of sixteen lowercase digits each, with
single separators between them. -/
def HintListText (least most : Nat) (list : String) : Prop :=
  ∃ pieces : List Bytes, asBytes list = [separatorByte].intercalate pieces ∧
      least ≤ pieces.length ∧ pieces.length ≤ most ∧
      ∀ piece ∈ pieces, piece.length = entryHexDigits ∧ ∀ digit ∈ piece, LowerHexDigit digit

theorem exists_hexBytes (hLength : text.length = count * hexDigitsPerByte)
    (hDigits : ∀ digit ∈ text, LowerHexDigit digit) :
    ∃ bytes : Bytes, bytes.length = count ∧ text = hexBytes bytes := by
  induction count generalizing text with
  | zero =>
    obtain rfl := length_eq_zero_iff.mp (hLength.trans (Nat.zero_mul _))
    exact ⟨[], rfl, rfl⟩
  | succ count ih =>
    match text, hLength with
    | high :: low :: rest, hLength =>
      obtain ⟨hHigh, hDigits⟩ := forall_mem_cons.mp hDigits
      obtain ⟨hLow, hDigits⟩ := forall_mem_cons.mp hDigits
      have hLengthRest : rest.length = count * hexDigitsPerByte := by
        simp [hexDigitsPerByte] at hLength ⊢
        omega
      obtain ⟨bytes, hBytes, rfl⟩ := ih hLengthRest hDigits
      obtain ⟨highValue, hHigh⟩ := lowerHexDigit_iff.mp hHigh
      obtain ⟨lowValue, hLow⟩ := lowerHexDigit_iff.mp hLow
      obtain ⟨hHighLt, rfl⟩ := nibble_sound hHigh
      obtain ⟨hLowLt, rfl⟩ := nibble_sound hLow
      refine ⟨(highValue <<< nibbleBits ||| lowValue) :: bytes, by simp [hBytes], ?_⟩
      rw [hexBytes_cons, hexPair_of_nibbles hHighLt hLowLt]
    | [_], hLength => simp [hexDigitsPerByte] at hLength; omega
    | [], hLength => simp [hexDigitsPerByte] at hLength

theorem hintListText_iff {least most list} : HintListText least most list ↔
      ∃ entries : List Hint, list = encodeList entries ∧ least ≤ entries.length ∧
        entries.length ≤ most := by
  constructor
  · rintro ⟨pieces, hList, hLeast, hMost, hPieces⟩
    have hEntries : pieces ∈ Set.range (map fun entry : Hint => hexBytes entry.val) := by
      rw [Set.range_list_map]
      intro piece hPiece
      obtain ⟨hLength, hDigits⟩ := hPieces piece hPiece
      obtain ⟨bytes, hBytes, rfl⟩ := exists_hexBytes hLength hDigits
      exact ⟨⟨bytes, hBytes⟩, rfl⟩
    obtain ⟨entries, rfl⟩ := hEntries
    rw [length_map] at hLeast hMost
    refine ⟨entries, asBytes_injective ?_, hLeast, hMost⟩
    rw [hList, asBytes_encodeList]
  · rintro ⟨entries, rfl, hLeast, hMost⟩
    refine ⟨entries.map fun entry => hexBytes entry.val, asBytes_encodeList entries, ?_, ?_, ?_⟩
    · rwa [length_map]
    · rwa [length_map]
    intro piece hPiece
    obtain ⟨entry, -, rfl⟩ := mem_map.mp hPiece
    exact ⟨by simp [entryHexDigits], fun digit hDigit => lowerHexDigit_of_mem hDigit⟩

end RefineId.Rapp.Txt
