import RefineId.Data.Cursor

/-! Tag-length-value records of the card protocols: what the encoder writes
and how one record is read (`crates/ber/src/lib.rs`). -/
namespace RefineId.Ber

open Data

/-- Smallest length that does not fit the short form. -/
def shortFormCeiling : Nat := 0x80

def longForm1b : UInt8 := 0x81

def longForm2b : UInt8 := 0x82

def longForm3b : UInt8 := 0x83

def longForm4b : UInt8 := 0x84

def u24Max : Nat := 2 ^ 24 - 1

def multiByteTagMask : UInt8 := 0x1f

def tagMoreOctets : UInt8 := 0x80

def lengthOctetCountMask : UInt8 := 0x0f

inductive BerEncodeError where
  | lengthTooLarge (got : Nat)
  | malformedTag (tag : UInt16)
  deriving DecidableEq

inductive BerError where
  | empty
  | truncated
  | unsupportedLengthForm
  | unsupportedTagForm
  | integerOutOfRange
  | unexpectedTag (expected got : UInt16)
  deriving DecidableEq

/-- The first octet of a tag whose number continues in further octets. -/
def IsLeader (octet : UInt8) : Prop :=
  octet &&& multiByteTagMask = multiByteTagMask

instance : DecidablePred IsLeader := fun octet =>
  inferInstanceAs (Decidable (octet &&& multiByteTagMask = multiByteTagMask))

def lengthOctets (len : Nat) : Except BerEncodeError Bytes :=
  if len < shortFormCeiling then .ok [UInt8.ofNat len]
  else if len < 2 ^ 8 then .ok [longForm1b, UInt8.ofNat len]
  else if len < 2 ^ 16 then .ok (longForm2b :: beBytes 2 len)
  else if len ≤ u24Max then .ok (longForm3b :: (beBytes 4 len).drop 1)
  else if len < 2 ^ 32 then .ok (longForm4b :: beBytes 4 len)
  else .error (.lengthTooLarge len)

/-- Owned buffer of assembled records. -/
structure BerEncoder where
  out : Bytes
  deriving DecidableEq

namespace BerEncoder

def empty : BerEncoder := ⟨[]⟩

variable (encoder : BerEncoder)

def extend (bytes : Bytes) : BerEncoder :=
  ⟨encoder.out ++ bytes⟩

/-- A refused length leaves the buffer as it was. -/
def pushLength (len : Nat) : Except BerEncodeError Unit × BerEncoder :=
  match lengthOctets len with
  | .ok octets => (.ok (), encoder.extend octets)
  | .error error => (.error error, encoder)

/-- Append tag octets, length and value. The tag stays behind when the length
is refused. -/
def pushOctets (tag value : Bytes) : Except BerEncodeError Unit × BerEncoder :=
  match (encoder.extend tag).pushLength value.length with
  | (.ok (), encoder) => (.ok (), encoder.extend value)
  | (.error error, encoder) => (.error error, encoder)

def pushTlv (tag : UInt8) (value : Bytes) : Except BerEncodeError Unit × BerEncoder :=
  if IsLeader tag then (.error (.malformedTag tag.toUInt16), encoder)
  else encoder.pushOctets [tag] value

def pushTlvTag2 (tag2 : UInt16) (value : Bytes) : Except BerEncodeError Unit × BerEncoder :=
  let (tagHi, tagLo) := u16BeBytes tag2
  if ¬IsLeader tagHi ∨ tagLo &&& tagMoreOctets ≠ 0 then (.error (.malformedTag tag2), encoder)
  else encoder.pushOctets [tagHi, tagLo] value

def finish : Bytes :=
  encoder.out

end BerEncoder

def finished : Except BerEncodeError Unit × BerEncoder → Except BerEncodeError Bytes
  | (.ok (), encoder) => .ok encoder.finish
  | (.error error, _) => .error error

def tlv (tag : UInt8) (value : Bytes) : Except BerEncodeError Bytes :=
  finished (BerEncoder.empty.pushTlv tag value)

def tlv2 (tag2 : UInt16) (value : Bytes) : Except BerEncodeError Bytes :=
  finished (BerEncoder.empty.pushTlvTag2 tag2 value)

/-- A tag and value written again, as the harnesses do
(`crates/ber/src/proofs.rs`): in one octet when the tag fits one. -/
def reencode (tag : UInt16) (value : Bytes) : Except BerEncodeError Bytes :=
  if tag.toNat < 2 ^ 8 then tlv tag.toUInt8 value else tlv2 tag value

/-- One record as read: its tag, its value and the bytes it occupied. -/
@[ext] structure BerTlvAny where
  tag : UInt16
  value : Bytes
  size : Nat
  deriving DecidableEq

def readTag : Reader BerError UInt16 := do
  let first ← Reader.byte .empty
  if IsLeader first then do
    let second ← Reader.byte .truncated
    if second &&& tagMoreOctets ≠ 0 then throw .unsupportedTagForm
    else pure (u16FromBytes first second)
  else pure first.toUInt16

/-- How many length octets follow a long-form marker. -/
def lengthOctetCount (marker : UInt8) : Except BerError Nat :=
  if marker = longForm1b ∨ marker = longForm2b ∨ marker = longForm3b ∨ marker = longForm4b then
    .ok (marker &&& lengthOctetCountMask).toNat
  else .error .unsupportedLengthForm

/-- At most four octets are accumulated, so nothing is shifted out. -/
def readLength : Reader BerError Nat := do
  let first ← Reader.byte .truncated
  if first.toNat < shortFormCeiling then pure first.toNat
  else do
    let count ← liftM (lengthOctetCount first)
    let octets ← Reader.take .truncated .truncated count
    pure (octets.foldl (fun acc byte => acc <<< 8 ||| byte.toNat) 0)

def BerTlvAny.parse (bytes : Bytes) : Except BerError BerTlvAny := do
  let (tag, cursor) ← readTag ⟨bytes, 0⟩
  let (length, cursor) ← readLength cursor
  let (value, cursor) ← Reader.take .truncated .truncated length cursor
  .ok ⟨tag, value, cursor.offset⟩

end RefineId.Ber
