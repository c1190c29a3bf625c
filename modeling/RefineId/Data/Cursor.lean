import RefineId.Data.Result
import RefineId.Data.Words

/-! Readers over a shared byte buffer. A reader moves an offset through bytes
it never changes. `Reads` says that a reader turns one encoding into one
value wherever that encoding stands in a buffer, and it composes along bind. -/
namespace RefineId.Data

open List

/-- Position of a reader in its input. -/
structure Cursor where
  bytes : Bytes
  offset : Nat
  deriving DecidableEq

/-- Readers fail with an error or return a value and an advanced cursor. -/
abbrev Reader (ε α : Type) := StateT Cursor (Except ε) α

namespace Reader
variable {ε α : Type}

def byte (truncated : ε) : Reader ε UInt8 := fun cursor =>
  match cursor.bytes[cursor.offset]? with
  | some byte => .ok (byte, { cursor with offset := cursor.offset + 1 })
  | none => .error truncated

/-- Read a slice of known length. An end past the machine word has its own
error, distinct from an end past the input. -/
def take (overflow truncated : ε) (length : Nat) : Reader ε Bytes := fun cursor =>
  match checkedAdd cursor.offset length with
  | none => .error overflow
  | some stop =>
    if stop ≤ cursor.bytes.length then
      .ok ((cursor.bytes.drop cursor.offset).take length, { cursor with offset := stop })
    else .error truncated

/-- Bytes after the cursor; nothing is consumed. -/
def remaining : Reader ε Nat := fun cursor =>
  .ok (cursor.bytes.length - cursor.offset, cursor)

def many (element : Reader ε α) : Nat → Reader ε (List α)
  | 0 => pure []
  | count + 1 => do
      let value ← element
      let rest ← many element count
      pure (value :: rest)

end Reader

variable {ε α β : Type}

/-- The reader consumes exactly `encoding` and returns `value`, whatever
stands around it in a buffer of addressable size. -/
def Reads (reader : Reader ε α) (encoding : Bytes) (value : α) : Prop :=
  ∀ before after : Bytes, (before ++ encoding ++ after).length < 2 ^ 64 →
    reader ⟨before ++ encoding ++ after, before.length⟩ =
      .ok (value, ⟨before ++ encoding ++ after, (before ++ encoding).length⟩)

theorem reads_pure (value : α) : Reads (pure value : Reader ε α) [] value := by
  intro before after _
  rw [stateT_pure_apply, append_nil]

variable {first : Reader ε α} {right : Bytes} {next : α → Reader ε β} {left : Bytes} {a : α}

/-- Sequencing readers concatenates what they consume. -/
theorem Reads.bind {b} (hFirst : Reads first left a) (hNext : Reads (next a) right b) :
    Reads (first >>= next) (left ++ right) b := by
  intro before after hSize
  have hLeft := hFirst before (right ++ after) (by simpa using hSize)
  have hRight := hNext (before ++ left) after (by simpa using hSize)
  simp only [append_assoc] at hLeft hRight ⊢
  change (first _ >>= fun result => next result.1 result.2) = _
  rw [hLeft]
  exact hRight

variable {encoding : Bytes}

/-- A last step that consumes nothing. -/
theorem Reads.bind_nil {b} (hFirst : Reads first encoding a) (hNext : Reads (next a) [] b) :
    Reads (first >>= next) encoding b := by
  rw [← append_nil encoding]
  exact hFirst.bind hNext

theorem Reads.bind_pure (f : α → β) (hFirst : Reads first encoding a) :
    Reads (first >>= fun value => pure (f value)) encoding (f a) :=
  hFirst.bind_nil (reads_pure (f a))

theorem reads_byte (truncated : ε) (byte : UInt8) : Reads (Reader.byte truncated) [byte] byte := by
  intro before after _
  simp [Reader.byte]

theorem reads_take (overflow truncated : ε) (bytes : Bytes) :
    Reads (Reader.take overflow truncated bytes.length) bytes bytes := by
  intro before after hSize
  simp only [length_append] at hSize
  have hAdd : checkedAdd before.length bytes.length = some (before.length + bytes.length) := by
    simp only [checkedAdd, ite_eq_left_iff]
    omega
  simp [Reader.take, hAdd]

/-- A reader may look at how much input is left. It still reads an encoding
if it does so for every amount that leaves room for it. -/
theorem reads_remaining_bind {next : Nat → Reader ε α} {value}
    (hNext : ∀ left, encoding.length ≤ left → Reads (next left) encoding value) :
    Reads (Reader.remaining >>= next) encoding value := by
  intro before after hSize
  refine hNext _ ?_ before after hSize
  simp only [length_append]
  omega

/-- Only encodings of addressable size ever have to be read. -/
theorem reads_of_bounded {reader : Reader ε α} {value}
    (h : encoding.length < 2 ^ 64 → Reads reader encoding value) : Reads reader encoding value := by
  intro before after hSize
  refine h ?_ before after hSize
  simp only [length_append] at hSize
  omega

/-- The cursor stands before `encoding` and then behind it. -/
structure Consumes (cursor : Cursor) (encoding : Bytes) (after : Cursor) : Prop where
  bytes : after.bytes = cursor.bytes
  offset : after.offset = cursor.offset + encoding.length
  stands : ∃ before rest, cursor.bytes = before ++ (encoding ++ rest) ∧
    before.length = cursor.offset

variable {cursor after : Cursor}

theorem Consumes.trans {middle} (hLeft : Consumes cursor left middle)
    (hRight : Consumes middle right after) : Consumes cursor (left ++ right) after := by
  obtain ⟨before, rest, hBytes, hOffset⟩ := hLeft.stands
  obtain ⟨before', rest', hBytes', hOffset'⟩ := hRight.stands
  have hSplit : (before ++ left) ++ rest = before' ++ (right ++ rest') := by
    rw [append_assoc, ← hBytes, ← hLeft.bytes, hBytes']
  obtain ⟨rfl, rfl⟩ := append_inj hSplit (by
    rw [length_append, hOffset, hOffset', hLeft.offset])
  refine ⟨hRight.bytes.trans hLeft.bytes, ?_, before, rest', ?_, hOffset⟩
  · rw [hRight.offset, hLeft.offset, length_append, add_assoc]
  · rw [hBytes, append_assoc]

/-- What stands first in a concatenation can be consumed on its own. -/
theorem Consumes.split (left : Bytes) (h : Consumes cursor (left ++ right) after) :
    ∃ middle, Consumes cursor left middle ∧ Consumes middle right after := by
  obtain ⟨before, rest, hBytes, hOffset⟩ := h.stands
  rw [append_assoc] at hBytes
  refine ⟨⟨cursor.bytes, cursor.offset + left.length⟩, ⟨rfl, rfl, before, _, hBytes, hOffset⟩,
    h.bytes, ?_, before ++ left, rest, ?_, ?_⟩
  · rw [h.offset, length_append, add_assoc]
  · rw [hBytes, append_assoc]
  · rw [length_append, hOffset]

theorem consumes_start {bytes} : Consumes ⟨bytes, 0⟩ encoding after ↔
      (∃ rest, bytes = encoding ++ rest) ∧ after = ⟨bytes, encoding.length⟩ := by
  constructor
  · rintro ⟨hBytes, hOffset, before, rest, hInput, hBefore⟩
    obtain rfl := length_eq_zero_iff.mp hBefore
    refine ⟨⟨rest, hInput⟩, ?_⟩
    cases after
    simp_all
  · rintro ⟨⟨rest, hInput⟩, rfl⟩
    exact ⟨rfl, (zero_add _).symm, [], rest, hInput, rfl⟩

theorem byte_eq_ok {truncated : ε} {byte} :
    Reader.byte truncated cursor = .ok (byte, after) ↔ Consumes cursor [byte] after := by
  constructor
  · intro h
    rw [Reader.byte] at h
    split at h
    next found hFound =>
      cases h
      obtain ⟨hLt, hFound⟩ := List.getElem?_eq_some_iff.mp hFound
      refine ⟨rfl, rfl, cursor.bytes.take cursor.offset, cursor.bytes.drop (cursor.offset + 1),
        ?_, by simp; omega⟩
      rw [← hFound, singleton_append, ← drop_eq_getElem_cons, take_append_drop]
    next => cases h
  · rintro ⟨hBytes, hOffset, before, rest, hInput, hBefore⟩
    have hFound : cursor.bytes[cursor.offset]? = some byte := by
      rw [hInput, ← hBefore]
      simp
    rw [Reader.byte, hFound]
    cases after
    simp_all

theorem take_eq_ok {overflow truncated : ε} {length bytes} :
    Reader.take overflow truncated length cursor = .ok (bytes, after) ↔
      bytes.length = length ∧ after.offset < 2 ^ 64 ∧ Consumes cursor bytes after := by
  constructor
  · intro h
    by_cases hWord : cursor.offset + length < 2 ^ 64
    · rw [Reader.take, checkedAdd, if_pos hWord] at h
      split at h
      next => contradiction
      next stop hStop =>
        cases hStop
        split at h
        next hInside =>
          cases h
          refine ⟨by simp; omega, hWord, rfl, by simp; omega, cursor.bytes.take cursor.offset,
            cursor.bytes.drop (cursor.offset + length), ?_, by simp; omega⟩
          rw [← drop_drop, take_append_drop, take_append_drop]
        next => cases h
    · rw [Reader.take, checkedAdd, if_neg hWord] at h
      cases h
  rintro ⟨rfl, hWord, hBytes, hOffset, before, rest, hInput, hBefore⟩
  have hAdd : checkedAdd cursor.offset bytes.length = some (cursor.offset + bytes.length) :=
    if_pos (hOffset ▸ hWord)
  have hInside : cursor.offset + bytes.length ≤ cursor.bytes.length := by
    rw [hInput]
    simp
    omega
  have hTaken : (cursor.bytes.drop cursor.offset).take bytes.length = bytes := by
    rw [hInput, ← hBefore, drop_left, take_left]
  rw [Reader.take, hAdd]
  simp only [hInside, if_true, hTaken]
  cases after
  simp_all

/-- Pieces of at least `least` bytes each bound their number by their total. -/
theorem length_mul_le_flatten {R} {pieces : List Bytes} {values : List α}
    {least : Nat} (hPieces : Forall₂ R pieces values)
    (hLeast : ∀ piece value, R piece value → least ≤ piece.length) :
    values.length * least ≤ pieces.flatten.length := by
  induction hPieces with
  | nil => simp
  | cons hHead _ ih =>
    have hHead := hLeast _ _ hHead
    simp only [length_cons, flatten_cons, length_append, Nat.succ_mul]
    omega

theorem reads_many {element : Reader ε α} {encodings values}
    (h : Forall₂ (Reads element) encodings values) :
    Reads (Reader.many element values.length) encodings.flatten values := by
  induction h with
  | nil => exact reads_pure []
  | cons hHead _ ih => exact hHead.bind (ih.bind_pure _)

end RefineId.Data
