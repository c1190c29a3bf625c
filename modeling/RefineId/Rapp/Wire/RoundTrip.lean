import RefineId.Rapp.Wire.Decoder
import Mathlib.Data.List.Perm.Basic

/-! Deterministic encoding and strict decoding are inverse to each other. -/
namespace RefineId.Rapp

open Data Decoder BTreeMap List UInt64 WireError

variable {additional major : UInt8}

/-- The two halves of an initial byte are recovered from it. -/
theorem initial_split (hMajor : major < 8) (hAdditional : additional < 32) :
    (major <<< 5 ||| additional) >>> 5 = major ∧ (major <<< 5 ||| additional) &&& 0x1f = additional := by
  have hAll : ∀ m : Fin 8, ∀ a : Fin 32,
      (UInt8.ofNat m <<< 5 ||| UInt8.ofNat a) >>> 5 = UInt8.ofNat m ∧
        (UInt8.ofNat m <<< 5 ||| UInt8.ofNat a) &&& 0x1f = UInt8.ofNat a := by
    decide +kernel
  have hPair := hAll ⟨major.toNat, hMajor⟩ ⟨additional.toNat, hAdditional⟩
  simpa using hPair

variable {tail : Bytes} {value : UInt64}

/-- An argument is read back unless it is wider than its value needs. -/
theorem reads_argument (hWide : Reads (wideArgument additional) tail value)
    (hOne : additional = argumentOneByte → 23 < value.toNat)
    (hTwo : additional = argumentTwoBytes → 0xff < value.toNat)
    (hFour : additional = argumentFourBytes → 0xffff < value.toNat)
    (hEight : additional = argumentEightBytes → 0xffffffff < value.toNat) :
    Reads (argument additional) tail value := by
  have hMinimal : nonMinimal additional value = false := by
    simp only [nonMinimal, Bool.or_eq_false_iff, Bool.and_eq_false_imp, decide_eq_true_eq,
      decide_eq_false_iff_not, UInt64.le_iff_toNat_le, not_le]
    exact ⟨⟨⟨hOne, hTwo⟩, hFour⟩, hEight⟩
  rw [← append_nil tail]
  refine hWide.bind ?_
  simp only [hMinimal, Bool.false_eq_true, ↓reduceIte]
  exact reads_pure value

theorem reads_beBytes {width} (h : value.toNat < 256 ^ width) :
    Reads (take width >>= fun bytes => pure (UInt64.ofNat (beValue bytes)))
      (beBytes width value.toNat) value := by
  have hTake := reads_take integerOverflow truncated (beBytes width value.toNat)
  rw [beBytes_length] at hTake
  have hRead := hTake.bind_pure fun bytes => UInt64.ofNat (beValue bytes)
  rw [beValue_beBytes h, UInt64.ofNat_toNat] at hRead
  exact hRead

/-- Every argument is written in a form the decoder reads back; additional
information and following bytes do not depend on the major type. -/
theorem encodeArgument_spec (value : UInt64) :
    ∃ additional tail, additional < 32 ∧ Reads (argument additional) tail value ∧
      ∀ major, encodeArgument major value = (major <<< 5 ||| additional) :: tail := by
  have hBack (hByte : value.toNat ≤ 0xff) : value.toUInt8.toUInt64 = value := by
    apply UInt64.toNat_inj.mp
    rw [UInt8.toNat_toUInt64, UInt64.toNat_toUInt8, Nat.mod_eq_of_lt (by omega)]
  simp only [encodeArgument]
  split
  · rename_i hImmediate
    have hLe : value.toUInt8 ≤ argumentImmediateMax := by
      rw [UInt8.le_iff_toNat_le, toNat_toUInt8, Nat.mod_eq_of_lt (by omega)]
      exact hImmediate
    refine ⟨_, [], UInt8.lt_of_le_of_lt hLe (by decide), reads_argument ?_ ?_ ?_ ?_ ?_, fun _ => rfl⟩
    · simp only [wideArgument, hLe, ↓reduceIte, hBack (by omega)]
      exact reads_pure value
    all_goals
      intro hEq
      rw [hEq] at hLe
      exact absurd hLe (by decide)
  split
  · have hRead := (reads_byte truncated value.toUInt8).bind_pure UInt8.toUInt64
    rw [hBack ‹_›] at hRead
    refine ⟨argumentOneByte, _, by decide, reads_argument hRead ?_ ?_ ?_ ?_, fun _ => rfl⟩
    all_goals first | exact fun _ => by omega | exact fun hEq => absurd hEq (by decide)
  split
  · refine ⟨argumentTwoBytes, beBytes 2 value.toNat, by decide,
      reads_argument (reads_beBytes (by omega)) ?_ ?_ ?_ ?_, fun _ => rfl⟩
    all_goals first | exact fun _ => by omega | exact fun hEq => absurd hEq (by decide)
  split
  · refine ⟨argumentFourBytes, beBytes 4 value.toNat, by decide,
      reads_argument (reads_beBytes (by omega)) ?_ ?_ ?_ ?_, fun _ => rfl⟩
    all_goals first | exact fun _ => by omega | exact fun hEq => absurd hEq (by decide)
  · refine ⟨argumentEightBytes, beBytes 8 value.toNat, by decide,
      reads_argument (reads_beBytes value.toNat_lt) ?_ ?_ ?_ ?_, fun _ => rfl⟩
    all_goals exact fun _ => by omega

variable {depth : Nat} {rest : Bytes} {value : WireValue}

/-- An item is read back once its part after the argument is. -/
theorem reads_value {argument} (hDepth : depth ≤ maxNestingDepth) (hMajor : major < 8)
    (hItem : ∀ additional tail, Reads (Decoder.argument additional) tail argument →
      Reads (item (Decoder.value (depth + 1)) major additional) (tail ++ rest) value) :
    Reads (Decoder.value depth) (encodeArgument major argument ++ rest) value := by
  obtain ⟨additional, tail, hAdditional, hReads, hEncode⟩ := encodeArgument_spec argument
  obtain ⟨hHigh, hLow⟩ := initial_split hMajor hAdditional
  rw [hEncode, value_eq, if_neg (not_lt.mpr hDepth)]
  refine (reads_byte truncated (major <<< 5 ||| additional)).bind ?_
  rw [hHigh, hLow]
  exact hItem additional tail hReads

/-- Lengths are read back when they fit a machine word. -/
theorem reads_length {count} (hCount : count < 2 ^ 64)
    (h : Reads (argument additional) tail (UInt64.ofNat count)) :
    Reads (length additional) tail count := by
  have hRead := h.bind_pure UInt64.toNat
  rw [toNat_ofNat_of_lt' hCount] at hRead
  exact hRead

/-- The bound on a collection's length admits every collection that follows. -/
theorem reads_boundedCollectionLength {count least} {α : Type} {next}
    {value : α} (hCount : count < 2 ^ 64) (hLeast : count * least ≤ rest.length)
    (h : Reads (argument additional) tail (UInt64.ofNat count))
    (hNext : Reads (next count) rest value) :
    Reads (boundedCollectionLength additional least >>= next) (tail ++ rest) value := by
  apply reads_of_bounded
  intro hSize
  rw [length_append] at hSize
  have hMul : checkedMul count least = some (count * least) := by
    simp only [checkedMul, ite_eq_left_iff]
    omega
  rw [boundedCollectionLength, bind_assoc]
  refine (reads_length hCount h).bind ?_
  rw [hMul]
  rw [bind_assoc]
  refine reads_remaining_bind fun left hLeft => ?_
  rw [if_neg (by omega), pure_bind]
  exact hNext

variable {text : String} {encoding : Bytes}

theorem encodeText_ok (h : encodeText text = .ok encoding) : byteLen text ≤ maxTextSize ∧
      encoding = encodeArgument 3 (UInt64.ofNat (byteLen text)) ++ asBytes text := by
  rw [encodeText] at h
  split_ifs at h
  cases h
  exact ⟨not_lt.mp ‹_›, rfl⟩

theorem reads_text (hDepth : depth ≤ maxNestingDepth) (h : encodeText text = .ok encoding) :
    Reads (Decoder.value depth) encoding (.text text) := by
  obtain ⟨hSize, rfl⟩ := encodeText_ok h
  refine reads_value hDepth (by decide) fun additional tail hArgument => ?_
  have hWord : byteLen text < 2 ^ 64 := lt_of_le_of_lt hSize (by decide)
  refine (reads_length hWord hArgument).bind ?_
  rw [if_neg (not_lt.mpr hSize)]
  refine (reads_take integerOverflow truncated (asBytes text)).bind_nil ?_
  rw [fromUtf8_asBytes]
  exact reads_pure _

theorem encodeValue_negative_ok {value} (h : encodeValue (.negative value) depth = .ok encoding) :
    ∃ argument : UInt64, encoding = encodeArgument 1 argument ∧
      -1 - (argument.toNat : Int) = value.toInt := by
  have hDepth := encodeValue_depth h
  rw [encodeValue.eq_def, if_neg (not_lt.mpr hDepth)] at h
  dsimp only at h
  split at h
  · rename_i hNegative
    have hSign : value.toInt < 0 := Int64.lt_iff_toInt_lt.mp hNegative
    have hLow : -2 ^ 63 ≤ value.toInt := value.le_toInt
    have hWord : 0 ≤ -1 - value.toInt ∧ -1 - value.toInt < 2 ^ 64 := by omega
    rw [u64TryFrom, if_pos hWord] at h
    cases h
    have hNat : (-1 - value.toInt).toNat < 2 ^ 64 := by omega
    refine ⟨_, rfl, ?_⟩
    rw [toNat_ofNat_of_lt' hNat]
    omega
  · cases h

/-- Array elements are encoded one after another. -/
theorem encodeItems_ok {values output} (h : encodeItems values depth = .ok output) :
    ∃ pieces, output = pieces.flatten ∧
      Forall₂ (fun piece value => encodeValue value depth = .ok piece) pieces values := by
  induction values generalizing output with
  | nil =>
    rw [encodeItems.eq_def] at h
    cases h
    exact ⟨[], rfl, .nil⟩
  | cons value rest ih =>
    rw [encodeItems.eq_def] at h
    obtain ⟨head, hHead, h⟩ := bind_eq_ok.mp h
    obtain ⟨tail, hTail, h⟩ := bind_eq_ok.mp h
    cases h
    obtain ⟨pieces, rfl, hPieces⟩ := ih hTail
    exact ⟨head :: pieces, rfl, .cons hHead hPieces⟩

variable {entries : List (String × WireValue)}

theorem encodeKeys_ok {α : Type} {ordered} {f : WireValue → α}
    (h : encodeKeys (entries.map fun entry => (entry.1, f entry.2)) = .ok ordered) :
    Forall₂ (fun entry item => encodeText entry.1 = .ok item.1 ∧ item.2 = f entry.2)
      entries ordered := by
  induction entries generalizing ordered with
  | nil =>
    cases h
    exact .nil
  | cons entry rest ih =>
    obtain ⟨key, hKey, h⟩ := bind_eq_ok.mp h
    obtain ⟨tail, hTail, h⟩ := bind_eq_ok.mp h
    cases h
    exact .cons ⟨hKey, rfl⟩ (ih hTail)

/-- One encoded map entry: its key, then its value. -/
def EntryPiece (depth : Nat) (piece : Bytes) (entry : String × WireValue) : Prop :=
  ∃ key value, encodeText entry.1 = .ok key ∧ encodeValue entry.2 depth = .ok value ∧
    piece = key ++ value

theorem joinEntries_ok {output ordered}
    (hOrdered : Forall₂ (fun entry item => encodeText entry.1 = .ok item.1 ∧
      item.2 = encodeValue entry.2 depth) entries ordered) (h : joinEntries ordered = .ok output) :
    ∃ pieces, output = pieces.flatten ∧ Forall₂ (EntryPiece depth) pieces entries := by
  induction hOrdered generalizing output with
  | nil =>
    cases h
    exact ⟨[], rfl, .nil⟩
  | cons hHead _ ih =>
    obtain ⟨value, hValue, h⟩ := bind_eq_ok.mp h
    obtain ⟨tail, hTail, h⟩ := bind_eq_ok.mp h
    cases h
    obtain ⟨pieces, rfl, hPieces⟩ := ih hTail
    exact ⟨_ :: pieces, rfl, .cons ⟨_, value, hHead.1, hHead.2 ▸ hValue, rfl⟩ hPieces⟩

variable {values : Body}

/-- A map is encoded as its entries in some order. Which order is not needed
to read it back. -/
theorem encodeValue_map_ok (h : encodeValue (.map values) depth = .ok encoding) :
    ∃ entries pieces, entries.Perm values.entries ∧
      Forall₂ (EntryPiece (depth + 1)) pieces entries ∧
      encoding = encodeArgument 5 (UInt64.ofNat values.length) ++ pieces.flatten := by
  rw [encodeValue_map (encodeValue_depth h), encodeEntries_eq] at h
  obtain ⟨ordered, hKeys, h⟩ := bind_eq_ok.mp h
  obtain ⟨output, hJoin, h⟩ := bind_eq_ok.mp h
  cases h
  have hSorted : Relation.Comp (Forall₂ _) Perm values.entries
      (ordered.insertionSort keyLe) :=
    ⟨ordered, encodeKeys_ok (f := fun value => encodeValue value (depth + 1)) hKeys,
      (perm_insertionSort keyLe ordered).symm⟩
  rw [forall₂_comp_perm_eq_perm_comp_forall₂] at hSorted
  obtain ⟨entries, hPerm, hEntries⟩ := hSorted
  obtain ⟨pieces, rfl, hPieces⟩ := joinEntries_ok hEntries hJoin
  exact ⟨entries, pieces, hPerm.symm, hPieces, rfl⟩

theorem encodeArgument_pos (major : UInt8) (value : UInt64) :
    1 ≤ (encodeArgument major value).length := by
  obtain ⟨additional, tail, -, -, hEncode⟩ := encodeArgument_spec value
  rw [hEncode, length_cons]
  omega

theorem encodeText_pos (h : encodeText text = .ok encoding) : 1 ≤ encoding.length := by
  obtain ⟨-, rfl⟩ := encodeText_ok h
  rw [length_append]
  exact (encodeArgument_pos _ _).trans (Nat.le_add_right _ _)

/-- No value has an empty encoding, so a collection is never longer than the
bytes that follow its header. -/
theorem encodeValue_pos (h : encodeValue value depth = .ok encoding) : 1 ≤ encoding.length := by
  have hDepth := encodeValue_depth h
  have hAppend : ∀ major argument rest, 1 ≤ (encodeArgument major argument ++ rest).length := by
    intro major argument rest
    rw [length_append]
    exact (encodeArgument_pos major argument).trans (Nat.le_add_right _ _)
  have hInner := h
  rw [encodeValue.eq_def, if_neg (not_lt.mpr hDepth)] at hInner
  cases value with
  | negative value =>
    obtain ⟨argument, rfl, -⟩ := encodeValue_negative_ok h
    exact encodeArgument_pos 1 argument
  | array values =>
    rw [encodeValue_array hDepth] at h
    obtain ⟨output, -, h⟩ := bind_eq_ok.mp h
    cases h
    exact hAppend _ _ _
  | map values =>
    obtain ⟨-, -, -, -, rfl⟩ := encodeValue_map_ok h
    exact hAppend _ _ _
  | unsigned value =>
    cases hInner
    exact encodeArgument_pos 0 value
  | bytes bytes =>
    cases hInner
    exact hAppend _ _ _
  | text text => exact encodeText_pos hInner
  | bool value => cases value <;> cases hInner <;> decide
  | null =>
    cases hInner
    decide

/-- The decoder reads back every encoding of this value, at every depth the
encoder accepts. -/
def Decodes (value : WireValue) : Prop :=
  ∀ depth encoding, encodeValue value depth = .ok encoding →
    Reads (Decoder.value depth) encoding value

theorem decodes_array {values : List WireValue} (hValues : ∀ value ∈ values, Decodes value) :
    Decodes (.array values) := by
  intro depth encoding h
  have hDepth := encodeValue_depth h
  rw [encodeValue_array hDepth] at h
  obtain ⟨output, hItems, h⟩ := bind_eq_ok.mp h
  cases h
  obtain ⟨pieces, rfl, hPieces⟩ := encodeItems_ok hItems
  have hReads : Forall₂ (Reads (Decoder.value (depth + 1))) pieces values := by
    refine forall₂_iff_zip.mpr ⟨hPieces.length_eq, ?_⟩
    intro piece value hMem
    exact hValues value (of_mem_zip hMem).2 _ _ ((forall₂_iff_zip.mp hPieces).2 hMem)
  have hLeast : values.length * 1 ≤ pieces.flatten.length :=
    length_mul_le_flatten hPieces fun _ _ h => encodeValue_pos h
  apply reads_of_bounded
  intro hSize
  rw [length_append] at hSize
  refine reads_value hDepth (by decide) fun additional tail hArgument => ?_
  refine reads_boundedCollectionLength (by omega) hLeast hArgument ?_
  exact (reads_many hReads).bind_pure _

/-- The map loop reads fresh entries in any order into the map they make. -/
theorem reads_fillMap {pieces} (hPieces : Forall₂ (EntryPiece depth) pieces entries)
    (hValues : ∀ entry ∈ entries, Decodes entry.2) (hNodup : (entries.map Prod.fst).Nodup)
    (hFresh : ∀ key ∈ entries.map Prod.fst, values.contains key = false) :
    Reads (fillMap (Decoder.value depth) entries.length values) pieces.flatten
      (values.insertAll entries) := by
  induction hPieces generalizing values with
  | nil => exact reads_pure values
  | @cons piece entry pieces entries hHead _ ih =>
    obtain ⟨key, value, hKey, hValue, rfl⟩ := hHead
    obtain ⟨hNotMem, hRest⟩ := nodup_cons.mp hNodup
    have hEntry : Decodes entry.2 := hValues entry mem_cons_self
    rw [flatten_cons, append_assoc]
    refine (reads_text (encodeValue_depth hValue) hKey).bind ?_
    refine (hEntry depth value hValue).bind ?_
    rw [if_neg (by rw [hFresh entry.1 mem_cons_self]; exact Bool.false_ne_true)]
    refine ih (fun other hMem => hValues other (mem_cons_of_mem _ hMem)) hRest ?_
    intro other hMem
    have hNe : other ≠ entry.1 := fun hEq => hNotMem (hEq ▸ hMem)
    rw [contains_eq_isSome, BTreeMap.get?_insert, if_neg hNe, ← contains_eq_isSome]
    exact hFresh other (mem_cons_of_mem _ hMem)

theorem decodes_map (hValues : ∀ key, Decodes (values.value key)) : Decodes (.map values) := by
  intro depth encoding h
  obtain ⟨entries, pieces, hPerm, hPieces, rfl⟩ := encodeValue_map_ok h
  have hKeys : (entries.map Prod.fst).Nodup := by
    rw [(hPerm.map Prod.fst).nodup_iff, entries_keys]
    exact values.keys.nodup
  have hEntries : ∀ entry ∈ entries, Decodes entry.2 := by
    intro entry hMem
    obtain ⟨key, -, rfl⟩ := mem_map.mp (hPerm.mem_iff.mp hMem)
    exact hValues key
  have hLength : entries.length = values.length := by
    rw [hPerm.length_eq, entries_length]
  have hLeast : entries.length * 2 ≤ pieces.flatten.length := by
    refine length_mul_le_flatten hPieces ?_
    rintro piece entry ⟨key, value, hKey, hValue, rfl⟩
    have hKeyPos := encodeText_pos hKey
    have hValuePos := encodeValue_pos hValue
    rw [length_append]
    omega
  have hFill : Reads (fillMap (Decoder.value (depth + 1)) entries.length .empty) pieces.flatten
      (BTreeMap.empty.insertAll entries) := by
    refine reads_fillMap hPieces hEntries hKeys fun key _ => ?_
    rw [contains_eq_isSome, BTreeMap.get?_empty]
    rfl
  rw [insertAll_perm_entries hPerm] at hFill
  rw [← hLength]
  apply reads_of_bounded
  intro hSize
  rw [length_append] at hSize
  refine reads_value (encodeValue_depth h) (by decide) fun additional tail hArgument => ?_
  refine reads_boundedCollectionLength (by omega) hLeast hArgument ?_
  exact hFill.bind_pure _

theorem decodes_bytes (bytes : Bytes) : Decodes (.bytes bytes) := by
  intro depth encoding h
  have hDepth := encodeValue_depth h
  rw [encodeValue.eq_def, if_neg (not_lt.mpr hDepth)] at h
  cases h
  apply reads_of_bounded
  intro hSize
  rw [length_append] at hSize
  refine reads_value hDepth (by decide) fun additional tail hArgument => ?_
  refine (reads_length (by omega) hArgument).bind ?_
  exact (reads_take integerOverflow truncated bytes).bind_pure _

/-- Every value, by induction over its containers. -/
theorem decodes (value : WireValue) : Decodes value := by
  induction value using WireValue.induction with
  | unsigned value =>
    intro depth encoding h
    have hDepth := encodeValue_depth h
    rw [encodeValue.eq_def, if_neg (not_lt.mpr hDepth)] at h
    cases h
    rw [← append_nil (encodeArgument 0 value)]
    refine reads_value hDepth (by decide) fun additional tail hArgument => ?_
    exact hArgument.bind (reads_pure _)
  | negative value =>
    intro depth encoding h
    obtain ⟨argument, rfl, hArgument⟩ := encodeValue_negative_ok h
    rw [← append_nil (encodeArgument 1 argument)]
    refine reads_value (encodeValue_depth h) (by decide) fun additional tail hTail => ?_
    refine hTail.bind ?_
    rw [hArgument, i64TryFrom_toInt]
    exact reads_pure _
  | bytes bytes => exact decodes_bytes bytes
  | text text =>
    intro depth encoding h
    have hDepth := encodeValue_depth h
    rw [encodeValue.eq_def, if_neg (not_lt.mpr hDepth)] at h
    exact reads_text hDepth h
  | array values ih => exact decodes_array ih
  | map values ih => exact decodes_map ih
  | bool value =>
    intro depth encoding h
    have hDepth := encodeValue_depth h
    rw [encodeValue.eq_def, if_neg (not_lt.mpr hDepth)] at h
    rw [value_eq, if_neg (not_lt.mpr hDepth)]
    cases value with
    | false | true =>
      cases h
      exact (reads_byte _ _).bind_nil (reads_pure _)
  | null =>
    intro depth encoding h
    have hDepth := encodeValue_depth h
    rw [encodeValue.eq_def, if_neg (not_lt.mpr hDepth)] at h
    rw [value_eq, if_neg (not_lt.mpr hDepth)]
    cases h
    exact (reads_byte _ _).bind_nil (reads_pure _)

/-- What the encoder produces within one frame, the decoder accepts. -/
theorem decode_of_encode {bytes} (h : encodeDeterministicCbor value = .ok bytes)
    (hSize : bytes.length ≤ maxFramePlaintext) : decodeDeterministicCbor bytes = .ok value := by
  have hWord : bytes.length < 2 ^ 64 := lt_of_le_of_lt hSize (by decide)
  have hRead := decodes value 0 bytes h [] [] (by simpa using hWord)
  simp only [nil_append, append_nil, length_nil] at hRead
  rw [decodeDeterministicCbor, if_neg (not_lt.mpr hSize), hRead]
  simp [h]

/-- What the decoder accepts is one frame and encodes back to the input. -/
theorem encode_of_decode {bytes} (h : decodeDeterministicCbor bytes = .ok value) :
    encodeDeterministicCbor value = .ok bytes ∧ bytes.length ≤ maxFramePlaintext := by
  rw [decodeDeterministicCbor] at h
  split_ifs at h with hSize
  obtain ⟨⟨decoded, decoder⟩, -, h⟩ := bind_eq_ok.mp h
  dsimp only at h
  split_ifs at h
  obtain ⟨canonical, hCanonical, h⟩ := bind_eq_ok.mp h
  split_ifs at h with hEqual
  cases h
  exact ⟨by rw [hCanonical, not_not.mp hEqual], not_lt.mp hSize⟩

/-- Encoding and decoding are inverse bijections between the encodable
values whose encoding fits one frame and the accepted byte strings. None of
the decoder's early refusals meets an encoding, and no two byte strings
stand for one value. -/
theorem deterministicCbor_bijection : (∀ value bytes, encodeDeterministicCbor value = .ok bytes →
      bytes.length ≤ maxFramePlaintext → decodeDeterministicCbor bytes = .ok value) ∧
    (∀ value bytes, decodeDeterministicCbor bytes = .ok value →
      encodeDeterministicCbor value = .ok bytes) ∧
    (∀ value left right, decodeDeterministicCbor left = .ok value →
      decodeDeterministicCbor right = .ok value → left = right) := by
  refine ⟨fun _ _ => decode_of_encode, fun _ _ h => (encode_of_decode h).1, ?_⟩
  intro value left right hLeft hRight
  have hSame := (encode_of_decode hLeft).1.symm.trans (encode_of_decode hRight).1
  exact Except.ok.inj hSame

example : encodeDeterministicCbor
    (.map (BTreeMap.ofList [("bb", .null), ("c", .array [.unsigned 300, .negative (-1)])])) =
      .ok [0xa2, 0x61, 0x63, 0x82, 0x19, 0x01, 0x2c, 0x20, 0x62, 0x62, 0x62, 0xf6] := by
  decide

end RefineId.Rapp
