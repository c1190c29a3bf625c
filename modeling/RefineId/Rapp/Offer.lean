import RefineId.Rapp.Transport
import RefineId.Rapp.Wire.Envelope

/-! The bootstrap answer of a custodian in pairing mode
(`crates/rapp/src/offer.rs`): a pairing offer while it can admit an attempt,
and a busy answer while it cannot. -/
namespace RefineId.Rapp

open Data

def maxOfferSize : Nat := 509

def pairingBusyRetryAfterMinMs : UInt64 := 1

def pairingBusyRetryAfterMaxMs : UInt64 := 5000

def offerTtlMs : UInt64 := 300000

def offerIdSize : Nat := 32

abbrev OfferId := FixedBytes offerIdSize

def offerFields : List String :=
  ["scheme", "version", "offer_id", "suites", "profiles", "transports", "offer_ttl_ms"]

/-- No offer has a field of this name. -/
def retryAfterField : String := "retry_after_ms"

def busyFields : List String :=
  ["scheme", "version", retryAfterField]

def scheme : String := "rapp"

inductive PairingOfferError where
  | wrongScheme
  | unsupportedVersion
  | wrongType
  | missingField (field : String)
  | unknownField
  | wrongLength (field : String) (expected got : Nat)
  | emptyRequiredArray
  | mandatorySuiteMissing
  | invalidTransport
  | transportNotOffered
  | retryAfterOutOfRange (got : UInt64)
  | invalidTtl (got : UInt64)
  | oversized (got : Nat)
  | wire (error : WireError)
  deriving DecidableEq

/-- The fields are public: an offer is valid when `validate` says so. -/
structure PairingOffer where
  offerId : OfferId
  suites : List String
  profiles : List String
  transports : List TransportCandidate
  offerTtlMs : UInt64
  deriving DecidableEq

abbrev OfferReader (α : Type) := Fields String WireValue PairingOfferError α

/-- The `take_*` helpers of bootstrap answers. -/
def takeOffer {α : Type} (select : WireValue → Option α) (field : String) : OfferReader α :=
  takeField (.missingField field) .wrongType select field

/-- The scheme and version both answers carry. -/
def takeHeader (fields : List String) : OfferReader Unit := do
  rejectOutside .unknownField fields
  let found ← takeOffer WireValue.asText? "scheme"
  ensure (found = scheme) .wrongScheme
  let version ← takeOffer WireValue.asArray? "version"
  ensure (version = versionValues) .unsupportedVersion

def transportToValue (candidate : TransportCandidate) : WireValue :=
  .map (BTreeMap.ofList
    [("profile", .text candidate.profile), ("candidate_id", .text candidate.candidateId),
      ("parameters", .map candidate.parameters)])

def takeTransport : OfferReader TransportCandidate := do
  rejectOutside .unknownField ["profile", "candidate_id", "parameters"]
  let profile ← takeOffer WireValue.asText? "profile"
  let candidateId ← takeOffer WireValue.asText? "candidate_id"
  let parameters ← takeOffer WireValue.asMap? "parameters"
  pure ⟨profile, candidateId, parameters⟩

def transportFromValue (value : WireValue) : Except PairingOfferError TransportCandidate :=
  match value with
  | .map map => do
      let (candidate, _) ← takeTransport map
      .ok candidate
  | _ => .error .wrongType

def takeTextArray (field : String) : OfferReader (List String) := do
  let values ← takeOffer WireValue.asArray? field
  liftM (selectAll PairingOfferError.wrongType WireValue.asText? values)

/-- Decode bounded bootstrap bytes into their top-level map. -/
def decodeBootstrapMap (bytes : Bytes) : Except PairingOfferError Body :=
  if maxOfferSize < bytes.length then .error (.oversized bytes.length)
  else do
    match ← (decodeDeterministicCbor bytes).mapError .wire with
    | .map map => .ok map
    | _ => .error .wrongType

/-- Each entry is the registered entry of its profile, and the profiles go
up by name from the previous one on. -/
def validateTransports :
    Option TransportProfile → List TransportCandidate → Except PairingOfferError Unit
  | _, [] => .ok ()
  | previous, candidate :: rest =>
    match TransportProfile.parse candidate.profile with
    | none => .error .invalidTransport
    | some profile =>
      if candidate ≠ profile.offerEntry then .error .invalidTransport
      else if previous.any fun earlier => asBytes profile.name ≤ asBytes earlier.name then
        .error .invalidTransport
      else validateTransports (some profile) rest

namespace PairingOffer

variable (offer : PairingOffer)

def validate : Except PairingOfferError Unit :=
  if offer.suites.isEmpty || offer.profiles.isEmpty || offer.transports.isEmpty then
    .error .emptyRequiredArray
  else if !offer.suites.contains cpaceKc2Suite then .error .mandatorySuiteMissing
  else if offer.offerTtlMs ≠ Rapp.offerTtlMs then .error (.invalidTtl offer.offerTtlMs)
  else validateTransports none offer.transports

def reconstruct (offerId : OfferId) (suites profiles : List String)
    (transports : List TransportCandidate) (offerTtlMs : UInt64) :
    Except PairingOfferError PairingOffer := do
  let offer : PairingOffer := ⟨offerId, suites, profiles, transports, offerTtlMs⟩
  offer.validate
  .ok offer

variable (profile : TransportProfile)

def entry : Option TransportCandidate :=
  offer.transports.find? (·.profile = profile.name)

def toMap : Body :=
  BTreeMap.ofList [("scheme", .text scheme), ("version", .array versionValues),
      ("offer_id", .bytes offer.offerId.val), ("suites", .array (offer.suites.map .text)),
      ("profiles", .array (offer.profiles.map .text)),
      ("transports", .array (offer.transports.map transportToValue)),
      ("offer_ttl_ms", .unsigned offer.offerTtlMs)]

def toCbor : Except PairingOfferError Bytes := do
  offer.validate
  let encoded ← (encodeDeterministicCbor (.map offer.toMap)).mapError .wire
  if maxOfferSize < encoded.length then .error (.oversized encoded.length) else .ok encoded

def takeFields : OfferReader PairingOffer := do
  takeHeader offerFields
  let idBytes ← takeOffer WireValue.asBytes? "offer_id"
  let offerId ← liftM ((reconstructIdentifier offerIdSize idBytes).mapError fun _ =>
    PairingOfferError.wrongLength "offer_id" offerIdSize idBytes.length)
  let suites ← takeTextArray "suites"
  let profiles ← takeTextArray "profiles"
  let transportValues ← takeOffer WireValue.asArray? "transports"
  let transports ← liftM (transportValues.mapM transportFromValue)
  let offerTtlMs ← takeOffer WireValue.asUnsigned? "offer_ttl_ms"
  liftM (reconstruct offerId suites profiles transports offerTtlMs)

def fromMap (map : Body) : Except PairingOfferError PairingOffer := do
  let (offer, _) ← takeFields map
  .ok offer

def fromCbor (bytes : Bytes) : Except PairingOfferError PairingOffer := do
  fromMap (← decodeBootstrapMap bytes)

def servedOver : Except PairingOfferError PairingOffer :=
  if (offer.entry profile).isNone then .error .transportNotOffered else .ok offer

end PairingOffer

def retryAfterAllowed (retryAfterMs : UInt64) : Prop :=
  pairingBusyRetryAfterMinMs ≤ retryAfterMs ∧ retryAfterMs ≤ pairingBusyRetryAfterMaxMs

instance (retryAfterMs : UInt64) : Decidable (retryAfterAllowed retryAfterMs) :=
  inferInstanceAs (Decidable (_ ∧ _))

/-- A wait within the schema's range. -/
@[ext] structure PairingBusy where
  retryAfterMs : UInt64
  allowed : retryAfterAllowed retryAfterMs
  deriving DecidableEq

namespace PairingBusy

def new (retryAfterMs : UInt64) : Except PairingOfferError PairingBusy :=
  if h : retryAfterMs < pairingBusyRetryAfterMinMs ∨ pairingBusyRetryAfterMaxMs < retryAfterMs then
    .error (.retryAfterOutOfRange retryAfterMs)
  else .ok ⟨retryAfterMs, by simpa only [retryAfterAllowed, not_or, UInt64.not_lt] using h⟩

def toMap (busy : PairingBusy) : Body :=
  BTreeMap.ofList [("scheme", .text scheme), ("version", .array versionValues),
      (retryAfterField, .unsigned busy.retryAfterMs)]

def toCbor (busy : PairingBusy) : Except PairingOfferError Bytes :=
  (encodeDeterministicCbor (.map busy.toMap)).mapError .wire

def takeFields : OfferReader PairingBusy := do
  takeHeader busyFields
  let retryAfterMs ← takeOffer WireValue.asUnsigned? retryAfterField
  liftM (new retryAfterMs)

def fromMap (map : Body) : Except PairingOfferError PairingBusy := do
  let (busy, _) ← takeFields map
  .ok busy

def fromCbor (bytes : Bytes) : Except PairingOfferError PairingBusy := do
  fromMap (← decodeBootstrapMap bytes)

end PairingBusy

inductive BootstrapAnswer where
  | offer (offer : PairingOffer)
  | busy (busy : PairingBusy)

/-- A map with a wait is a busy answer; any other is an offer, which must
list the transport the bytes arrived over. -/
def BootstrapAnswer.fromBootstrap (bytes : Bytes) (profile : TransportProfile) :
    Except PairingOfferError BootstrapAnswer := do
  let map ← decodeBootstrapMap bytes
  if map.contains retryAfterField then
    let busy ← PairingBusy.fromMap map
    .ok (.busy busy)
  else
    let offer ← PairingOffer.fromMap map
    let served ← offer.servedOver profile
    .ok (.offer served)

end RefineId.Rapp
