import RefineId.Data.Words
import Mathlib.Data.String.Basic

/-! Text as the UTF-8 bytes it is stored in. Lengths count bytes. -/
namespace RefineId.Data

variable (text : String)

def asBytes : Bytes :=
  text.toByteArray.data.toList

def byteLen : Nat :=
  (asBytes text).length

/-- The string with these UTF-8 bytes; ill-formed bytes are refused. -/
def fromUtf8 (bytes : Bytes) : Option String :=
  String.fromUTF8? ⟨bytes.toArray⟩

@[simp] theorem fromUtf8_asBytes (text : String) : fromUtf8 (asBytes text) = some text := by
  have hBytes : (⟨(asBytes text).toArray⟩ : ByteArray) = text.toByteArray := by
    simp [asBytes]
  rw [fromUtf8, hBytes, String.fromUTF8?, dif_pos text.isValidUTF8]
  rfl

/-- Characters with the Unicode `White_Space` property. -/
def isWhitespace (c : Char) : Bool :=
  let code := c.toNat
  (0x9 ≤ code && code ≤ 0xd) || code == 0x20 || code == 0x85 || code == 0xa0 ||
    code == 0x1680 || (0x2000 ≤ code && code ≤ 0x200a) || code == 0x2028 ||
    code == 0x2029 || code == 0x202f || code == 0x205f || code == 0x3000

/-- The characters left after removing white space at both ends. -/
def trim : List Char :=
  ((text.toList.dropWhile isWhitespace).reverse.dropWhile isWhitespace).reverse

/-- The text before a byte position, when the position splits no character. -/
def bytesBefore (stop : Nat) : Option String :=
  if stop ≤ byteLen text then fromUtf8 ((asBytes text).take stop) else none

def asciiLowercase (byte : UInt8) : UInt8 :=
  if 65 ≤ byte ∧ byte ≤ 90 then byte + 32 else byte

/-- Equality of texts up to the case of ASCII letters. -/
def eqIgnoreAsciiCase (left right : String) : Bool :=
  (asBytes left).map asciiLowercase = (asBytes right).map asciiLowercase

/-- What of a text is left when the case of its ASCII letters does not count. -/
def foldCase : Bytes :=
  (asBytes text).map asciiLowercase

theorem asBytes_injective : Function.Injective asBytes := by
  intro left right h
  have hRead := fromUtf8_asBytes left
  rw [h, fromUtf8_asBytes] at hRead
  exact (Option.some.inj hRead).symm

theorem asBytes_append (left right : String) :
    asBytes (left ++ right) = asBytes left ++ asBytes right := by
  simp [asBytes, String.toByteArray_append]

/-- The character with the code of a byte. -/
def charFrom (byte : UInt8) : Char :=
  Char.ofNat byte.toNat

theorem utf8EncodeChar_charFrom {byte} (h : byte < 128) :
    String.utf8EncodeChar (charFrom byte) = [byte] :=
  forall_byte_lt (P := fun byte => String.utf8EncodeChar (charFrom byte) = [byte]) (by decide)
    (UInt8.lt_iff_toNat_lt.mp h)

/-- ASCII characters are stored as they are. -/
theorem asBytes_ofList_charFrom {bytes} (h : ∀ byte ∈ bytes, byte < 128) :
    asBytes (String.ofList (bytes.map charFrom)) = bytes := by
  have hEncoded : (bytes.map charFrom).flatMap String.utf8EncodeChar = bytes := by
    induction bytes with
    | nil => rfl
    | cons byte rest ih =>
      rw [List.map_cons, List.flatMap_cons, utf8EncodeChar_charFrom (h byte List.mem_cons_self),
        ih fun other hMem => h other (List.mem_cons_of_mem _ hMem)]
      rfl
  rw [asBytes, String.toByteArray_ofList, List.utf8Encode, hEncoded]
  simp

/-- Texts one after another with a separator between them. -/
def joinWith (separator : String) : List String → String
  | [] => ""
  | [text] => text
  | text :: next :: rest => text ++ separator ++ joinWith separator (next :: rest)

theorem asBytes_joinWith (separator : String) (texts : List String) :
    asBytes (joinWith separator texts) = (asBytes separator).intercalate (texts.map asBytes) := by
  induction texts with
  | nil => rfl
  | cons text rest ih =>
    cases rest with
    | nil => simp [joinWith, List.intercalate]
    | cons next rest =>
      rw [joinWith, asBytes_append, asBytes_append, ih]
      simp [List.intercalate]

end RefineId.Data
