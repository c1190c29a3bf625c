import RefineId.Apdu.Command

/-! READ BINARY (`crates/apdu/src/iso7816.rs`) and short file identifiers
(`primitives.rs`). -/
namespace RefineId.Apdu

open Data

/-- A short file identifier: from one to thirty. -/
@[ext] structure Sfi where
  value : UInt8
  pos : value ≠ 0
  bound : value ≤ 30
  deriving DecidableEq

def Sfi.shortFormFlag : UInt8 := 0x80

/-- The selection flag with the identifier in the low bits. -/
def Sfi.asP1ShortForm (sfi : Sfi) : UInt8 :=
  Sfi.shortFormFlag ||| sfi.value

@[ext] structure DirectOffset15 where
  offset : UInt16
  bound : offset ≤ 0x7FFF
  deriving DecidableEq

namespace DirectOffset15

def asP1 (offset : DirectOffset15) : UInt8 := (u16BeBytes offset.offset).1

def asP2 (offset : DirectOffset15) : UInt8 := (u16BeBytes offset.offset).2

end DirectOffset15

inductive ReadBinaryOffset where
  | direct (offset : DirectOffset15)
  | bySfi (sfi : Sfi) (offset : UInt8)
  deriving DecidableEq

namespace ReadBinaryOffset

def asP1 : ReadBinaryOffset → UInt8
  | direct offset => offset.asP1
  | bySfi sfi _ => sfi.asP1ShortForm

def asP2 : ReadBinaryOffset → UInt8
  | direct offset => offset.asP2
  | bySfi _ offset => offset

end ReadBinaryOffset

structure ReadBinary where
  class_ : ApduClass
  offset : ReadBinaryOffset
  le : UInt8
  deriving DecidableEq

def ReadBinary.ins : UInt8 := 0xB0

def ReadBinary.intoApdu (command : ReadBinary) : CommandApdu :=
  (CommandApdu.fromWire [command.class_.asByte, ReadBinary.ins, command.offset.asP1,
    command.offset.asP2, command.le]).allowWrongLeRetry

/-- The direct form leaves the mode bit clear. -/
theorem DirectOffset15.asP1_lt (offset : DirectOffset15) : offset.asP1.toNat < 0x80 := by
  have hBound : offset.offset.toNat ≤ 0x7FFF := offset.bound
  rw [asP1, u16BeBytes, UInt16.toNat_toUInt8, UInt16.toNat_shiftRight, Nat.shiftRight_eq_div_pow]
  simp only [UInt16.toNat_ofNat, Nat.reducePow, Nat.reduceMod]
  omega

@[simp] theorem DirectOffset15.fromBytes_eq (offset : DirectOffset15) :
    u16FromBytes offset.asP1 offset.asP2 = offset.offset :=
  u16FromBytes_beBytes offset.offset

end RefineId.Apdu
