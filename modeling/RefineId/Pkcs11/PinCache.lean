import RefineId.Auth.Verify
import RefineId.Pkcs11.RejectedPins

/-! The PIN1 a slot holds between uses (`crates/pkcs11/src/pin_cache.rs`,
`crates/pkcs11/src/pin.rs`). -/
namespace RefineId.Pkcs11

open Data Apdu Auth PinCache

inductive PinRoleError where
  | empty
  | wrongLength (expectedMin expectedMax : Nat)
  | nonDigit
  deriving DecidableEq

def validateDigits (bytes : Bytes) (min max : Nat) : Except PinRoleError Unit :=
  if bytes = [] then .error .empty
  else if bytes.length < min ∨ max < bytes.length then .error (.wrongLength min max)
  else if ∃ byte ∈ bytes, ¬IsAsciiDigit byte then .error .nonDigit
  else .ok ()

structure PinBytes where
  asBytes : Bytes
  valid : validateDigits asBytes pinMinLength pinMaxLength = .ok ()
  deriving DecidableEq

/-- A point of the monotonic clock, in nanoseconds. -/
abbrev Instant : Type := Nat

/-- How long a PIN staged for one operation stays available. -/
def pin1LoginBridge : Nat := 30 * 1000000000

inductive Pin1Retention where
  | held
  | bridge (stagedAt : Instant)
  deriving DecidableEq

structure CachedPin1 where
  serial : TokenSerial
  cardEvents : UInt32
  pin : PinBytes
  generation : UInt64
  retention : Pin1Retention

/-- The shared count of one checkout, known by its number. -/
abbrev Lease : Type := Nat

structure PinSafetyCache where
  positivePin1 : Option CachedPin1
  outstanding : Option Lease
  generation : UInt64
  negative : PinCache.PinSafetyCache

/-- A PIN1 out of the cache, as `CheckedOutPin1` and `AcceptedPin1` carry it. -/
structure CheckedOut where
  entry : CachedPin1
  lease : Lease

inductive ExchangeFailure where
  | cardLeft
  | unanswered
  deriving DecidableEq

namespace ExchangeFailure

def of : TransportErrorKind → ExchangeFailure
  | .noCard | .readerRemoved => cardLeft
  | .timeoutUnknownState | .cardReset | .protocolDesync | .backend => unanswered

def ofOutcome (outcome : TransportOutcome) : Option ExchangeFailure :=
  outcome.kind.map of

end ExchangeFailure

/-- Failures of a signature (`crates/sign/src/lib.rs`). -/
inductive SignError (E : Type) where
  | transport (error : E)
  | outcome (outcome : TransportOutcome)
  | status (stage : String) (sw : StatusWord)
  | command (error : CommandDataError)
  | unexpectedSignatureLength (got expected : Nat)

def bridgeOpen (stagedAt now : Instant) : Bool :=
  stagedAt ≤ now ∧ now - stagedAt < pin1LoginBridge

def Pin1Retention.isOpen (now : Instant) : Pin1Retention → Bool
  | held => true
  | bridge stagedAt => bridgeOpen stagedAt now

inductive PreviouslyRejectedPin where
  | mk
  deriving DecidableEq

open ExchangeFailure

namespace PinSafetyCache

def new (fingerprintKey : Bytes) : PinSafetyCache :=
  ⟨none, none, 0, .new fingerprintKey⟩

variable (cache : PinSafetyCache)

/-- A new generation: what is still out can no longer come back. -/
def nextGeneration : PinSafetyCache :=
  { cache with generation := saturatingAdd cache.generation 1, outstanding := none }

def clearPositive : PinSafetyCache :=
  { cache.nextGeneration with positivePin1 := none }

/-- Put a held value back, unless the cache was cleared or given a newer value
while it was out. -/
def restore (entry : CachedPin1) : PinSafetyCache :=
  if entry.retention ≠ .held ∨ cache.generation ≠ entry.generation ∨
      cache.positivePin1.isSome then cache
  else { cache with positivePin1 := some entry }

def checkoutPin1At (serial : TokenSerial) (cardEvents : UInt32)
    (live : PinStatus) (now : Instant) (lease : Lease) : Option CheckedOut × PinSafetyCache :=
  match cache.positivePin1 with
  | none => (none, cache)
  | some entry =>
    let taken := { cache with positivePin1 := none }
    if entry.serial = serial ∧ entry.cardEvents = cardEvents ∧
        pin1StatusPermitsReusableCache live ∧ entry.retention.isOpen now then
      (some ⟨entry, lease⟩, { taken with outstanding := some lease })
    else (none, taken)

/-- Whether the slot has a PIN1. `strong` says whether a lease is still out. -/
def holdsPin1At (strong : Lease → Bool) (now : Instant) : Bool × PinSafetyCache :=
  if cache.outstanding.any strong then (true, cache)
  else
    match cache.positivePin1 with
    | none => (false, cache)
    | some entry =>
      if entry.retention.isOpen now then (true, cache) else (false, cache.clearPositive)

section Rejection
variable (mac : Mac)

def isRejected (cache : PinSafetyCache) (serial : TokenSerial) (pin : PinBytes) : Bool :=
  match Pin1.reconstruct pin.asBytes with
  | .ok pin1 => cache.negative.isRejected mac serial (.ofPin1 pin1)
  | .error _ => false

variable (cache : PinSafetyCache)

variable (serial : TokenSerial)

def putPositive (cardEvents : UInt32) (pin : PinBytes) (retention : Pin1Retention) :
    Except PreviouslyRejectedPin Unit × PinSafetyCache :=
  if cache.isRejected mac serial pin then (.error .mk, cache)
  else
    let next := cache.nextGeneration
    (.ok (), { next with
      positivePin1 := some ⟨serial, cardEvents, pin, next.generation, retention⟩ })

def storePin1 (cardEvents : UInt32)
    (pin : PinBytes) : Except PreviouslyRejectedPin Unit × PinSafetyCache :=
  cache.putPositive mac serial cardEvents pin .held

def stagePin1OnceAt (cardEvents : UInt32)
    (pin : PinBytes) (stagedAt : Instant) : Except PreviouslyRejectedPin Unit × PinSafetyCache :=
  cache.putPositive mac serial cardEvents pin (.bridge stagedAt)

def recordRejected (cache : PinSafetyCache) (serial : TokenSerial) (pin : PinBytes) :
    PinSafetyCache :=
  let cleared := cache.clearPositive
  match Pin1.reconstruct pin.asBytes with
  | .ok pin1 => { cleared with negative := cleared.negative.recordRejected mac serial (.ofPin1 pin1) }
  | .error _ => cleared

variable {E : Type} (kind : E → TransportErrorKind)

/-- Settle a checkout by the card's answer to its VERIFY: the value goes on, or
the cache takes it back, remembers it as refused or forgets it. -/
def settleVerify (cache : PinSafetyCache) (out : CheckedOut)
    (answer : Except (AuthError E) VerifyOutcome) : Option CheckedOut × PinSafetyCache :=
  let unanswered (failure : Option ExchangeFailure) :=
    (none, if failure = some .unanswered then cache.restore out.entry else cache)
  match answer with
  | .ok .ok => (some out, cache)
  | .ok (.wrongPin _) => (none, cache.recordRejected mac out.entry.serial out.entry.pin)
  | .ok .locked | .ok (.other _) => (none, cache)
  | .error (.command _) | .error (.retryFloor _) | .error (.pinLength _) => (none, cache)
  | .error (.transport error) => unanswered (some (.of (kind error)))
  | .error (.outcome outcome) => unanswered (ofOutcome outcome)

/-- Settle an accepted value by what became of the card. -/
def settleOperation (cache : PinSafetyCache) (out : CheckedOut)
    (failure : Option (SignError E)) : PinSafetyCache :=
  let left : Bool := match failure with
    | none | some (.status ..) | some (.command _) | some (.unexpectedSignatureLength ..) => false
    | some (.transport error) => of (kind error) == .cardLeft
    | some (.outcome outcome) => ofOutcome outcome == some .cardLeft
  if left then cache else cache.restore out.entry

end Rejection

end PinSafetyCache

end RefineId.Pkcs11
