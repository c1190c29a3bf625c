import RefineId.Auth.Credentials

/-! The lengths a card accepts for its codes (`crates/auth/src/pin_lengths.rs`)
and the ranges it lists them in (`crates/pkcs15/src/aod.rs`). -/
namespace RefineId.Auth

structure PasswordLengthRange where
  min : UInt8
  max : UInt8
  positive : min ≠ 0
  ordered : min ≤ max

namespace PasswordLengthRange

instance : DecidableEq PasswordLengthRange := fun first second =>
  decidable_of_iff (first.min = second.min ∧ first.max = second.max) (by
    cases first
    cases second
    simp)

def new (min max : UInt8) : Option PasswordLengthRange :=
  if h : min ≠ 0 ∧ min ≤ max then some ⟨min, max, h.1, h.2⟩ else none

def contains (range : PasswordLengthRange) (digitCount : Nat) : Bool :=
  range.min.toNat ≤ digitCount ∧ digitCount ≤ range.max.toNat

end PasswordLengthRange

inductive PinLengthRefusal where
  | outsideAcceptedRange (role : CredentialRole) (accepted : PasswordLengthRange)
  | noAcceptedLength (role : CredentialRole)
  deriving DecidableEq

/-- The lengths an entry is checked against, if there are any. -/
structure CredentialLengths where
  accepted : Option PasswordLengthRange

def CredentialLengths.check (lengths : CredentialLengths) (role : CredentialRole)
    (digitCount : Nat) : Except PinLengthRefusal Unit :=
  match lengths.accepted with
  | some range =>
    if range.contains digitCount then .ok () else .error (.outsideAcceptedRange role range)
  | none => .error (.noAcceptedLength role)

/-- The lengths of one card and the numbering they were read under. -/
structure CardPinLengths where
  numbering : PinReferenceScheme
  pin1 : CredentialLengths
  pin2 : CredentialLengths
  puk : CredentialLengths

namespace CardPinLengths
variable (lengths : CardPinLengths)

def slot : PinSlot → CredentialLengths
  | .pin1 => lengths.pin1
  | .pin2 => lengths.pin2

def checkPin1 (pin : Pin1) : Except PinLengthRefusal Unit :=
  lengths.pin1.check .pin1 pin.secret.digitCount

def checkPin2 (pin : Pin2) : Except PinLengthRefusal Unit :=
  lengths.pin2.check .pin2 pin.secret.digitCount

def checkPuk (puk : Puk) : Except PinLengthRefusal Unit :=
  lengths.puk.check .puk puk.secret.digitCount

def checkActivationEntry (presentedAs : Option PinSlot) (digitCount : Nat) :
    Except PinLengthRefusal Unit :=
  let lengths := match presentedAs with
    | some slot => lengths.slot slot
    | none => lengths.puk
  lengths.check .activationCode digitCount

end CardPinLengths

end RefineId.Auth
