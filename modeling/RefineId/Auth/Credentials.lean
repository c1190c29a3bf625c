import RefineId.Data.Words
import RefineId.Data.Result

/-! The typed codes of a card holder (`crates/auth/src/credentials.rs`) and the
references a card knows them by (`verify.rs`). -/
namespace RefineId.Auth

open Data

def pinMinLength : Nat := 4
def pinMaxLength : Nat := 12
def pukMinLength : Nat := 8
def pukMaxLength : Nat := 12

inductive CredentialRole where
  | pin1
  | pin2
  | puk
  | activationCode
  deriving DecidableEq

inductive CredentialInputError where
  | empty (role : CredentialRole)
  | wrongLength (role : CredentialRole) (expectedMin expectedMax : Nat)
  | nonDigit (role : CredentialRole)
  deriving DecidableEq

def IsAsciiDigit (byte : UInt8) : Prop :=
  0x30 ≤ byte ∧ byte ≤ 0x39

instance : DecidablePred IsAsciiDigit := fun byte =>
  inferInstanceAs (Decidable (0x30 ≤ byte ∧ byte ≤ 0x39))

/-- Digits of a length within the bounds of their role. -/
structure SecretDigits (minimum maximum : Nat) where
  secretBytes : Bytes
  nonempty : secretBytes ≠ []
  length_ge : minimum ≤ secretBytes.length
  length_le : secretBytes.length ≤ maximum
  digits : ∀ byte ∈ secretBytes, IsAsciiDigit byte
  deriving DecidableEq

namespace SecretDigits
variable {minimum maximum : Nat}

def reconstruct (input : Bytes) (role : CredentialRole) :
    Except CredentialInputError (SecretDigits minimum maximum) :=
  if hEmpty : input = [] then .error (.empty role)
  else if hLength : input.length < minimum ∨ maximum < input.length then
    .error (.wrongLength role minimum maximum)
  else if hDigits : ∃ byte ∈ input, ¬IsAsciiDigit byte then .error (.nonDigit role)
  else
    .ok {
      secretBytes := input
      nonempty := hEmpty
      length_ge := Nat.le_of_not_lt fun h => hLength (.inl h)
      length_le := Nat.le_of_not_lt fun h => hLength (.inr h)
      digits := fun byte hByte => by_contra fun h => hDigits ⟨byte, hByte, h⟩ }

def digitCount (secret : SecretDigits minimum maximum) : Nat :=
  secret.secretBytes.length

end SecretDigits

structure Pin1 where
  secret : SecretDigits pinMinLength pinMaxLength
  deriving DecidableEq

structure Pin2 where
  secret : SecretDigits pinMinLength pinMaxLength
  deriving DecidableEq

structure Puk where
  secret : SecretDigits pukMinLength pukMaxLength
  deriving DecidableEq

def Pin1.reconstruct (input : Bytes) : Except CredentialInputError Pin1 :=
  .mk <$> SecretDigits.reconstruct input .pin1

def Pin1.digits (pin : Pin1) : Bytes := pin.secret.secretBytes
def Pin2.digits (pin : Pin2) : Bytes := pin.secret.secretBytes
def Puk.digits (puk : Puk) : Bytes := puk.secret.secretBytes

inductive PinSlot where
  | pin1
  | pin2
  deriving DecidableEq

/-- The numbering a card refers to its codes by. -/
inductive PinReferenceScheme where
  | citizen
  | organizational
  deriving DecidableEq

namespace PinReferenceScheme

def reference : PinReferenceScheme → PinSlot → UInt8
  | citizen, .pin1 => 0x11
  | citizen, .pin2 => 0x82
  | organizational, .pin1 => 0x03
  | organizational, .pin2 => 0x04

def pukReference : PinReferenceScheme → UInt8
  | citizen => 0x83
  | organizational => 0x12

end PinReferenceScheme

end RefineId.Auth
