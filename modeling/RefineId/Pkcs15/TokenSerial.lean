import RefineId.Pkcs11.RejectedPins
import RefineId.Rapp.Txt

/-! The serial of a card as it is shown and compared
(`crates/pkcs15/src/token_serial.rs`): the text of a printable serial number,
the hexadecimal digits of any other. -/
namespace RefineId.Pkcs15

open Data Rapp.Txt
open PinCache (TokenSerial)

def hexLetterValueOffset : UInt8 := 10

def printableAsciiMin : UInt8 := 0x20

def printableAsciiMax : UInt8 := 0x7E

/-- One hexadecimal digit, in either case. -/
def nybble (byte : UInt8) : Option UInt8 :=
  if 0x30 ≤ byte ∧ byte ≤ 0x39 then some (byte - 0x30)
  else if 0x61 ≤ byte ∧ byte ≤ 0x66 then some (byte - 0x61 + hexLetterValueOffset)
  else if 0x41 ≤ byte ∧ byte ≤ 0x46 then some (byte - 0x41 + hexLetterValueOffset)
  else none

def decodedHexPair (pair : UInt8 × UInt8) : Option UInt8 := do
  let hi ← nybble pair.1
  let lo ← nybble pair.2
  some (hi <<< nibbleBits ||| lo)

def decodedHexBytes (serial : TokenSerial) : Option Bytes :=
  let bytes := asBytes serial.asStr
  if bytes.length % hexDigitsPerByte ≠ 0 then none else (pairs bytes).mapM decodedHexPair

def hexEncode (bytes : Bytes) : String :=
  lowerHex bytes

def printable (bytes : Bytes) : Bool :=
  !bytes.isEmpty && bytes.all fun byte => printableAsciiMin ≤ byte && byte ≤ printableAsciiMax

def renderTokenSerial (hexToken : TokenSerial) : TokenSerial :=
  match decodedHexBytes hexToken with
  | some bytes => if printable bytes then (fromUtf8 bytes).elim hexToken .mk else hexToken
  | none => hexToken

variable (raw : Bytes)

/-- The serial of a card from the octets of its serial number. -/
def rendered : TokenSerial :=
  renderTokenSerial ⟨hexEncode raw⟩

theorem decodedHexBytes_hexEncode : decodedHexBytes ⟨hexEncode raw⟩ = some raw := by
  have hPair : ∀ byte, decodedHexPair (hexPair byte) = some byte := forall_byte (by decide +kernel)
  have hEven : ¬raw.length * hexDigitsPerByte % hexDigitsPerByte ≠ 0 := by simp
  rw [decodedHexBytes, hexEncode, asBytes_lowerHex, hexBytes_length, if_neg hEven, pairs_hexBytes]
  induction raw with
  | nil => rfl
  | cons byte rest ih => simp [hPair, ih]

theorem asBytes_rendered :
    asBytes (rendered raw).asStr = if printable raw then raw else hexBytes raw := by
  rw [rendered, renderTokenSerial, decodedHexBytes_hexEncode]
  dsimp only
  split_ifs with hPrintable
  · have hAscii : ∀ byte ∈ raw, byte < 128 := by
      intro byte hByte
      rw [printable, Bool.and_eq_true, List.all_eq_true] at hPrintable
      have hMost := of_decide_eq_true (Bool.and_eq_true _ _ ▸ hPrintable.2 byte hByte).2
      exact UInt8.lt_of_le_of_lt hMost (by decide)
    have hText := asBytes_ofList_charFrom hAscii
    have hRead := fromUtf8_asBytes (String.ofList (raw.map charFrom))
    rw [hText] at hRead
    rw [hRead]
    exact hText
  · exact asBytes_lowerHex raw

/-- Two serial numbers are rendered alike exactly if they are the same, or one
of them is printable and reads as the digits of the other, which is not. -/
theorem rendered_eq_iff (first second : Bytes) :
    rendered first = rendered second ↔ first = second ∨
      (printable first ∧ !printable second ∧ first = hexBytes second) ∨
      (printable second ∧ !printable first ∧ second = hexBytes first) := by
  have hBytes : rendered first = rendered second ↔
      asBytes (rendered first).asStr = asBytes (rendered second).asStr := by
    refine ⟨fun h => by rw [h], fun h => ?_⟩
    have hText := congrArg fromUtf8 h
    rw [fromUtf8_asBytes, fromUtf8_asBytes, Option.some.injEq] at hText
    exact TokenSerial.mk.injEq .. ▸ hText
  rw [hBytes, asBytes_rendered, asBytes_rendered]
  have hApart : printable first ≠ printable second → first ≠ second := mt (congrArg printable)
  cases hFirst : printable first <;> cases hSecond : printable second
  · simp [hexBytes_injective.eq_iff]
  · simp [hApart (by simp [hFirst, hSecond]), eq_comm]
  · simp [hApart (by simp [hFirst, hSecond])]
  · simp

/-- The octet `01` and the two characters `01`. -/
theorem serials_rendered_alike : rendered [0x01] = rendered [0x30, 0x31] := by
  decide +kernel

end RefineId.Pkcs15
