import RefineId.Data.Text

/-! A read container and how a reference names one of its files
(`crates/doc-sign/src/verification/asic.rs`). -/
namespace RefineId.DocSign

open Data

structure Entry where
  name : String
  content : Bytes
  deriving DecidableEq

inductive Mimetype where
  | asicE
  | bdoc
  deriving DecidableEq

structure CadesEntry where
  signature : Entry
  manifest : Option Entry
  deriving DecidableEq

/-- The entries of a container, sorted by role. The reader refuses a name that
repeats another. -/
structure AsicContainer where
  mimetype : Mimetype
  dataFiles : List Entry
  xadesSignatureFiles : List Entry
  cadesSignatures : List CadesEntry
  names_nodup : (dataFiles.map Entry.name).Nodup

def percent : UInt8 := 0x25

def hexValue (digit : UInt8) : Option UInt8 :=
  if 0x30 ≤ digit ∧ digit ≤ 0x39 then some (digit - 0x30)
  else if 0x41 ≤ digit ∧ digit ≤ 0x46 then some (digit - 0x37)
  else if 0x61 ≤ digit ∧ digit ≤ 0x66 then some (digit - 0x57)
  else none

/-- Octets with each escape replaced by the octet it spells. -/
def percentDecodeBytes : Bytes → Option Bytes
  | [] => some []
  | [byte] => if byte = percent then none else some [byte]
  | [byte, next] => if byte = percent then none else (percentDecodeBytes [next]).map (byte :: ·)
  | byte :: high :: low :: rest =>
    if byte = percent then
      match hexValue high, hexValue low with
      | some high, some low => (percentDecodeBytes rest).map ((high * 16 + low) :: ·)
      | _, _ => none
    else (percentDecodeBytes (high :: low :: rest)).map (byte :: ·)

/-- The entry name a reference spells with escapes. -/
def percentDecode (uri : String) : Option String :=
  (percentDecodeBytes (asBytes uri)).bind fromUtf8

/-- A reference names an entry as written or with its escapes decoded. -/
def uriNames (uri name : String) : Bool :=
  uri = name || percentDecode uri = some name

end RefineId.DocSign
