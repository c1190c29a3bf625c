import RefineId.Rapp.Wire.Envelope

/-! How many bytes an encoding takes. `Sized` composes along the containers,
so the size of a message is read off its fields without encoding it. -/
namespace RefineId.Rapp

open Data List UInt64 BTreeMap

def argumentSize (value : UInt64) : Nat :=
  if value.toNat ≤ 23 then 1
  else if value.toNat ≤ 0xff then 2
  else if value.toNat ≤ 0xffff then 3
  else if value.toNat ≤ 0xffffffff then 5
  else 9

@[simp] theorem encodeArgument_length (major : UInt8) (value : UInt64) :
    (encodeArgument major value).length = argumentSize value := by
  simp only [encodeArgument, argumentSize]
  split
  · rfl
  split
  · rfl
  split
  · simp
  split
  · simp
  · simp

theorem argumentSize_mono {left right} (h : left.toNat ≤ right.toNat) :
    argumentSize left ≤ argumentSize right := by
  simp only [argumentSize]
  split_ifs <;> omega

theorem argumentSize_le (value : UInt64) : argumentSize value ≤ 9 := by
  simp only [argumentSize]
  split_ifs <;> omega

def stringSize (length : Nat) : Nat :=
  argumentSize (UInt64.ofNat length) + length

theorem stringSize_mono {left right} (hWord : right < 2 ^ 64) (h : left ≤ right) :
    stringSize left ≤ stringSize right := by
  have hArgument : argumentSize (UInt64.ofNat left) ≤ argumentSize (UInt64.ofNat right) := by
    apply argumentSize_mono
    rwa [toNat_ofNat_of_lt' (lt_of_le_of_lt h hWord), toNat_ofNat_of_lt' hWord]
  exact Nat.add_le_add hArgument h

theorem stringSize_le (length : Nat) : stringSize length ≤ length + 9 := by
  have hArgument := argumentSize_le (UInt64.ofNat length)
  rw [stringSize]
  omega

/-- The value encodes at a depth, and takes this many bytes. -/
def Sized (depth : Nat) (value : WireValue) (size : Nat) : Prop :=
  ∃ encoding, encodeValue value depth = .ok encoding ∧ encoding.length = size

/-- A map entry whose key and value encode, with their bytes together. -/
def EntrySized (depth : Nat) (entry : String × WireValue) (size : Nat) : Prop :=
  byteLen entry.1 ≤ maxTextSize ∧
    ∃ valueSize, Sized depth entry.2 valueSize ∧ size = stringSize (byteLen entry.1) + valueSize

section Rules
variable {depth : Nat}

section
variable (hDepth : depth ≤ maxNestingDepth)
include hDepth

theorem sized_unsigned (value : UInt64) : Sized depth (.unsigned value) (argumentSize value) := by
  refine ⟨_, ?_, encodeArgument_length 0 value⟩
  rw [encodeValue.eq_def, if_neg (not_lt.mpr hDepth)]

theorem sized_bool (value : Bool) : Sized depth (.bool value) 1 := by
  cases value
  · exact ⟨[0xf4], by rw [encodeValue.eq_def, if_neg (not_lt.mpr hDepth)], rfl⟩
  · exact ⟨[0xf5], by rw [encodeValue.eq_def, if_neg (not_lt.mpr hDepth)], rfl⟩

theorem sized_null : Sized depth .null 1 :=
  ⟨[0xf6], by rw [encodeValue.eq_def, if_neg (not_lt.mpr hDepth)], rfl⟩

theorem sized_bytes (bytes : Bytes) : Sized depth (.bytes bytes) (stringSize bytes.length) := by
  refine ⟨encodeArgument 2 (UInt64.ofNat bytes.length) ++ bytes, ?_, ?_⟩
  · rw [encodeValue.eq_def, if_neg (not_lt.mpr hDepth)]
  · rw [length_append, encodeArgument_length, stringSize]

end

variable {text : String}

theorem encodeText_of_le (h : byteLen text ≤ maxTextSize) :
    encodeText text = .ok (encodeArgument 3 (UInt64.ofNat (byteLen text)) ++ asBytes text) := by
  rw [encodeText, if_neg (not_lt.mpr h)]

theorem encodeText_length {encoding} (h : encodeText text = .ok encoding) :
    encoding.length = stringSize (byteLen text) := by
  obtain ⟨-, rfl⟩ := encodeText_ok h
  rw [length_append, encodeArgument_length, stringSize, byteLen]

theorem sized_text (hDepth : depth ≤ maxNestingDepth) (h : byteLen text ≤ maxTextSize) :
    Sized depth (.text text) (stringSize (byteLen text)) := by
  have hText := encodeText_of_le h
  refine ⟨_, ?_, encodeText_length hText⟩
  rw [encodeValue.eq_def, if_neg (not_lt.mpr hDepth)]
  exact hText

variable {sizes : List Nat}

theorem encodeItems_sized {values} (h : Forall₂ (Sized depth) values sizes) :
    ∃ output, encodeItems values depth = .ok output ∧ output.length = sizes.sum := by
  induction h with
  | nil => exact ⟨[], by rw [encodeItems.eq_def], rfl⟩
  | cons hHead _ ih =>
    obtain ⟨head, hEncode, hLength⟩ := hHead
    obtain ⟨tail, hItems, hTail⟩ := ih
    refine ⟨head ++ tail, ?_, ?_⟩
    · rw [encodeItems.eq_def]
      simp only [hEncode, hItems, ok_bind]
    · rw [length_append, hLength, hTail, sum_cons]

theorem sized_array (hDepth : depth ≤ maxNestingDepth) {values}
    (h : Forall₂ (Sized (depth + 1)) values sizes) :
    Sized depth (.array values) (argumentSize (UInt64.ofNat values.length) + sizes.sum) := by
  obtain ⟨output, hItems, hLength⟩ := encodeItems_sized h
  refine ⟨encodeArgument 4 (UInt64.ofNat values.length) ++ output, ?_, ?_⟩
  · rw [encodeValue_array hDepth, hItems]
    rfl
  · rw [length_append, encodeArgument_length, hLength]

theorem encodeKeys_sized {entries} (h : Forall₂ (EntrySized depth) entries sizes) :
    ∃ ordered, encodeKeys (entries.map fun entry => (entry.1, encodeValue entry.2 depth)) =
        .ok ordered ∧
      Forall₂ (fun item size => ∃ value, item.2 = .ok value ∧
        item.1.length + value.length = size) ordered sizes := by
  induction h with
  | nil => exact ⟨[], rfl, .nil⟩
  | @cons entry size rest sizes hEntry _ ih =>
    obtain ⟨hKey, valueSize, ⟨value, hValue, hLength⟩, rfl⟩ := hEntry
    obtain ⟨ordered, hKeys, hOrdered⟩ := ih
    obtain ⟨key, hText⟩ : ∃ key, encodeText entry.1 = .ok key := ⟨_, encodeText_of_le hKey⟩
    refine ⟨(key, encodeValue entry.2 depth) :: ordered, ?_, .cons ⟨value, hValue, ?_⟩ hOrdered⟩
    · simp only [map_cons, encodeKeys, hText, hKeys, ok_bind]
    · rw [encodeText_length hText, hLength]

theorem joinEntries_sized {ordered}
    (h : Forall₂ (fun item size => ∃ value, item.2 = .ok value ∧
      item.1.length + value.length = size) ordered sizes) :
    ∃ output, joinEntries ordered = .ok output ∧ output.length = sizes.sum := by
  induction h with
  | nil => exact ⟨[], rfl, rfl⟩
  | @cons item size rest sizes hItem _ ih =>
    obtain ⟨value, hValue, rfl⟩ := hItem
    obtain ⟨output, hJoin, hLength⟩ := ih
    refine ⟨item.1 ++ value ++ output, ?_, ?_⟩
    · simp only [joinEntries, hValue, hJoin, ok_bind]
    · rw [length_append, length_append, hLength, sum_cons]

/-- The size of a map is that of the entries written, in whatever order they
are encoded. -/
theorem sized_map (hDepth : depth ≤ maxNestingDepth) {pairs}
    (hKeys : (pairs.map Prod.fst).Nodup) (h : Forall₂ (EntrySized (depth + 1)) pairs sizes) :
    Sized depth (.map (ofList pairs))
      (argumentSize (UInt64.ofNat pairs.length) + sizes.sum) := by
  have hPerm := ofList_entries_perm hKeys
  have hLength : (ofList pairs).length = pairs.length := by
    rw [← entries_length, hPerm.length_eq]
  -- the map iterates its entries by key, and the encoder sorts them once more
  have hEntries : Relation.Comp Perm (Forall₂ (EntrySized (depth + 1)))
      (ofList pairs).entries sizes :=
    ⟨pairs, hPerm, h⟩
  rw [← forall₂_comp_perm_eq_perm_comp_forall₂] at hEntries
  obtain ⟨entrySizes, hSizes, hSum⟩ := hEntries
  obtain ⟨ordered, hEncoded, hOrdered⟩ := encodeKeys_sized hSizes
  have hSorted : Relation.Comp Perm (Forall₂ _) (ordered.insertionSort keyLe) entrySizes :=
    ⟨ordered, perm_insertionSort keyLe ordered, hOrdered⟩
  rw [← forall₂_comp_perm_eq_perm_comp_forall₂] at hSorted
  obtain ⟨sortedSizes, hItems, hSortedSum⟩ := hSorted
  obtain ⟨output, hJoin, hOutput⟩ := joinEntries_sized hItems
  refine ⟨encodeArgument 5 (UInt64.ofNat pairs.length) ++ output, ?_, ?_⟩
  · rw [encodeValue_map hDepth, encodeEntries_eq, hEncoded, hLength]
    simp only [ok_bind, hJoin]
  · rw [length_append, encodeArgument_length, hOutput, hSortedSum.sum_nat, hSum.sum_nat]

theorem argumentSize_short {count} (h : count ≤ 23) : argumentSize (UInt64.ofNat count) = 1 := by
  rw [argumentSize, toNat_ofNat_of_lt' (lt_of_le_of_lt h (by decide)), if_pos h]

/-- A map of few fields has a one-byte header. -/
theorem sized_record (hDepth : depth ≤ maxNestingDepth) {pairs}
    (hKeys : (pairs.map Prod.fst).Nodup) (hCount : pairs.length ≤ 23)
    (h : Forall₂ (EntrySized (depth + 1)) pairs sizes) {size}
    (hSize : 1 + sizes.sum = size) : Sized depth (.map (ofList pairs)) size := by
  rw [← hSize, ← argumentSize_short hCount]
  exact sized_map hDepth hKeys h

/-- A field whose name is short enough for a one-byte header. -/
theorem EntrySized.field (key : String) (length : Nat) (hKey : byteLen key = length ∧ length ≤ 23)
    {value size} (h : Sized depth value size) :
    EntrySized depth (key, value) (length + 1 + size) := by
  obtain ⟨hLength, hShort⟩ := hKey
  refine ⟨hLength ▸ hShort.trans (by decide), size, h, ?_⟩
  rw [hLength, stringSize, argumentSize_short hShort, Nat.add_comm 1 length]

/-- Bytes of an array of strings of these lengths. -/
def stringsSize (lengths : List Nat) : Nat :=
  argumentSize (UInt64.ofNat lengths.length) + (lengths.map stringSize).sum

section
variable (hDepth : depth < maxNestingDepth)
include hDepth

theorem sized_strings {α : Type} {string length} {items : List α}
    (h : ∀ item ∈ items, Sized (depth + 1) (string item) (stringSize (length item))) :
    Sized depth (.array (items.map string)) (stringsSize (items.map length)) := by
  have hItems : Forall₂ (Sized (depth + 1)) (items.map string)
      ((items.map length).map stringSize) := by
    rw [map_map, forall₂_map_left_iff, forall₂_map_right_iff, forall₂_same]
    exact h
  have hArray := sized_array hDepth.le hItems
  rw [length_map] at hArray
  rw [stringsSize, length_map]
  exact hArray

theorem sized_texts {texts : List String} (h : ∀ text ∈ texts, byteLen text ≤ maxTextSize) :
    Sized depth (.array (texts.map .text)) (stringsSize (texts.map byteLen)) :=
  sized_strings hDepth fun text hMem => sized_text hDepth (h text hMem)

theorem sized_byteStrings (values : List Bytes) :
    Sized depth (.array (values.map .bytes)) (stringsSize (values.map length)) :=
  sized_strings hDepth fun bytes _ => sized_bytes hDepth bytes

end

end Rules

namespace Envelope

variable (messageType : MessageType)

def sizeAround (sequence : UInt64) (bodySize : Nat) : Nat :=
  61 + stringSize (byteLen messageType.asStr) + argumentSize sequence + bodySize

theorem sized_version : Sized 1 (.array versionValues) 5 :=
  sized_array (by decide)
    (.cons (sized_unsigned (by decide) _) (.cons (sized_unsigned (by decide) _)
      (.cons (sized_unsigned (by decide) _) .nil)))

theorem sized_toMap (sessionId : SessionId) (sequence : UInt64)
    {body bodySize} (h : Sized 1 (.map body) bodySize) :
    Sized 0 (.map (toMap ⟨messageType, sessionId, sequence, body⟩))
      (sizeAround messageType sequence bodySize) := by
  have hType : byteLen messageType.asStr ≤ maxTextSize := by
    cases messageType <;> decide
  have hSession : stringSize sessionId.val.length = 17 := by
    rw [FixedBytes.length_val]
    decide
  refine sized_record (by decide) (by simp) (by simp)
    (.cons (.field "version" 7 (by decide) sized_version)
      (.cons (.field "type" 4 (by decide) (sized_text (by decide) hType))
        (.cons (.field "session_id" 10 (by decide) (sized_bytes (by decide) sessionId.val))
          (.cons (.field "sequence" 8 (by decide) (sized_unsigned (by decide) sequence))
            (.cons (.field "body" 4 (by decide) h) .nil))))) ?_
  simp only [sum_cons, sum_nil, hSession, sizeAround]
  omega

/-- An envelope of known size encodes exactly when it fits one frame, and is
refused for nothing but its size. -/
theorem encode_sized {envelope : Envelope} {size} (h : Sized 0 (.map envelope.toMap) size) :
    (size ≤ maxFramePlaintext ∧ ∃ bytes, envelope.encode = .ok bytes ∧ bytes.length = size) ∨
      (maxFramePlaintext < size ∧ envelope.encode = .error (.oversizedPlaintext size)) := by
  obtain ⟨bytes, hEncode, rfl⟩ := h
  have hCbor : encodeDeterministicCbor (.map envelope.toMap) = .ok bytes := hEncode
  by_cases hSize : maxFramePlaintext < bytes.length
  · refine .inr ⟨hSize, ?_⟩
    rw [encode, hCbor, ok_bind, if_pos hSize]
  · refine .inl ⟨not_lt.mp hSize, bytes, ?_, rfl⟩
    rw [encode, hCbor, ok_bind, if_neg hSize]

/-- A body fits one frame at every session and sequence exactly when it does
at the widest sequence. -/
theorem fits_iff {messageType : MessageType} {body : Body} {bodySize}
    (hValid : validateBody messageType body = .ok ()) (h : Sized 1 (.map body) bodySize) :
    (∀ sessionId sequence, ∃ bytes,
      (reconstruct messageType sessionId sequence body >>= encode) = .ok bytes ∧
        bytes.length ≤ maxFramePlaintext) ↔
      sizeAround messageType (UInt64.ofNat (2 ^ 64 - 1)) bodySize ≤ maxFramePlaintext := by
  have hReconstruct : ∀ sessionId sequence, (reconstruct messageType sessionId sequence body >>=
      encode) = encode ⟨messageType, sessionId, sequence, body⟩ := by
    intro sessionId sequence
    rw [reconstruct, hValid]
    rfl
  constructor
  · intro hFits
    obtain ⟨bytes, hEncode, -⟩ := hFits (FixedBytes.replicate sessionIdSize 0)
      (UInt64.ofNat (2 ^ 64 - 1))
    rw [hReconstruct] at hEncode
    rcases encode_sized (sized_toMap messageType _ _ h) with ⟨hSize, -⟩ | ⟨-, hError⟩
    · exact hSize
    · rw [hError] at hEncode
      cases hEncode
  intro hSize sessionId sequence
  have hNarrower : sizeAround messageType sequence bodySize ≤ maxFramePlaintext := by
    refine Nat.le_trans ?_ hSize
    have hWide : argumentSize (UInt64.ofNat (2 ^ 64 - 1)) = 9 := by decide
    have hSequence := argumentSize_le sequence
    simp only [sizeAround, hWide]
    omega
  rw [hReconstruct]
  rcases encode_sized (sized_toMap messageType sessionId sequence h) with
    ⟨-, bytes, hEncode, hLength⟩ | ⟨hOver, -⟩
  · exact ⟨bytes, hEncode, hLength ▸ hNarrower⟩
  · exact absurd hNarrower (not_le.mpr hOver)

end Envelope

end RefineId.Rapp
