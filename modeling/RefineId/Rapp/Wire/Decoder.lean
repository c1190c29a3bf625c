import RefineId.Data.Cursor
import RefineId.Rapp.Wire.Value

/-! The strict decoder of the restricted value set. Everything it accepts is
encoded again and compared, after a number of earlier refusals that bound
the work done on hostile input. -/
namespace RefineId.Rapp

open Data

abbrev Decoder (α : Type) := Reader WireError α

namespace Decoder

def byte : Decoder UInt8 :=
  Reader.byte .truncated

def take (length : Nat) : Decoder Bytes :=
  Reader.take .integerOverflow .truncated length

variable (additional : UInt8)

/-- An argument wider than its value needs. -/
def nonMinimal (value : UInt64) : Bool :=
  (additional = argumentOneByte && value ≤ argumentImmediateMax.toUInt64) ||
    (additional = argumentTwoBytes && value ≤ 0xff) ||
    (additional = argumentFourBytes && value ≤ 0xffff) ||
    (additional = argumentEightBytes && value ≤ 0xffffffff)

/-- The argument selected by the additional information, before the check
that its width is minimal. -/
def wideArgument : Decoder UInt64 :=
  if additional ≤ argumentImmediateMax then pure additional.toUInt64
  else if additional = argumentOneByte then do
    let value ← byte
    pure value.toUInt64
  else if additional = argumentTwoBytes then do
    let bytes ← take 2
    pure (UInt64.ofNat (beValue bytes))
  else if additional = argumentFourBytes then do
    let bytes ← take 4
    pure (UInt64.ofNat (beValue bytes))
  else if additional = argumentEightBytes then do
    let bytes ← take 8
    pure (UInt64.ofNat (beValue bytes))
  else throw .forbiddenCborType

def argument : Decoder UInt64 := do
  let value ← wideArgument additional
  if nonMinimal additional value then throw .nonCanonical else pure value

/-- Lengths are machine words of the same width as arguments. -/
def length : Decoder Nat := do
  let value ← argument additional
  pure value.toNat

/-- A collection length, refused when even the smallest entries would not
fit in the input that is left. -/
def boundedCollectionLength (minimumBytesPerEntry : Nat) : Decoder Nat := do
  let length ← length additional
  match checkedMul length minimumBytesPerEntry with
  | none => throw (.collectionTooLarge length)
  | some minimumBytes => do
      let remaining ← Reader.remaining
      if minimumBytes > remaining then throw (.collectionTooLarge length) else pure length

variable (element : Decoder WireValue)

def fillArray (length : Nat) : Decoder (List WireValue) :=
  Reader.many element length

/-- Decode map entries into a map. Keys are items like any other and must
turn out to be text. -/
def fillMap (element : Decoder WireValue) : Nat → Body → Decoder Body
  | 0, values => pure values
  | length + 1, values => do
      match ← element with
      | .text key => do
          let value ← element
          if values.contains key then throw .duplicateMapKey
          else fillMap element length (values.insert key value)
      | _ => throw .nonTextMapKey

/-- One item whose initial byte has been read; `element` decodes the items
one level below. -/
def item (major additional : UInt8) : Decoder WireValue :=
  match major.toNat with
  | 0 => do
      let value ← argument additional
      pure (.unsigned value)
  | 1 => do
      let argument ← argument additional
      match i64TryFrom (-1 - (argument.toNat : Int)) with
      | some value => pure (.negative value)
      | none => throw .integerOverflow
  | 2 => do
      let length ← length additional
      let bytes ← take length
      pure (.bytes bytes)
  | 3 => do
      let length ← length additional
      if length > maxTextSize then throw (.textTooLong length)
      else do
        let bytes ← take length
        match fromUtf8 bytes with
        | some value => pure (.text value)
        | none => throw .invalidUtf8
  | 4 => do
      let length ← boundedCollectionLength additional 1
      let values ← fillArray element length
      pure (.array values)
  | 5 => do
      let length ← boundedCollectionLength additional 2
      let values ← fillMap element length .empty
      pure (.map values)
  | 7 =>
    if additional = 20 then pure (.bool false)
    else if additional = 21 then pure (.bool true)
    else if additional = 22 then pure .null
    else throw .forbiddenCborType
  | _ => throw .forbiddenCborType

/-- Decode one item with `levels` levels of nesting left, its own included. -/
def valueWithin : Nat → Decoder WireValue
  | 0 => throw .nestingTooDeep
  | levels + 1 => do
      let initial ← byte
      item (valueWithin levels) (initial >>> 5) (initial &&& 0x1f)

def value (depth : Nat) : Decoder WireValue :=
  valueWithin (maxNestingDepth + 1 - depth)

/-- The recursion of the source: depth grows by one per level and is refused
past the limit. -/
theorem value_eq (depth : Nat) : value depth =
      if maxNestingDepth < depth then throw .nestingTooDeep
      else byte >>= fun initial =>
        item (value (depth + 1)) (initial >>> 5) (initial &&& 0x1f) := by
  by_cases hDepth : maxNestingDepth < depth
  · have hLevels : maxNestingDepth + 1 - depth = 0 := by omega
    rw [if_pos hDepth, value, hLevels, valueWithin]
  have hLevels : maxNestingDepth + 1 - depth = (maxNestingDepth + 1 - (depth + 1)) + 1 := by
    omega
  rw [if_neg hDepth, value, hLevels, valueWithin]
  rfl

end Decoder

/-- Decode one complete value. The bytes must be exactly the deterministic
encoding of what was decoded. -/
def decodeDeterministicCbor (bytes : Bytes) : Except WireError WireValue :=
  if maxFramePlaintext < bytes.length then .error (.oversizedPlaintext bytes.length)
  else do
    let (value, decoder) ← Decoder.value 0 ⟨bytes, 0⟩
    if decoder.offset ≠ bytes.length then .error .trailingData
    else do
      let canonical ← encodeDeterministicCbor value
      if canonical ≠ bytes then .error .nonCanonical else .ok value

end RefineId.Rapp
