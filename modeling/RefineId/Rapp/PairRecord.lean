import RefineId.Rapp.Message
import RefineId.Rapp.State

/-! Durable pairing records and their stored form
(`crates/rapp/src/pairing.rs`). -/
namespace RefineId.Rapp

open Data

def pairRecordFormatVersion : Nat × Nat × Nat := (26, 11, 2)

def pairRecordFormatValue : WireValue :=
  .array [.unsigned (UInt64.ofNat pairRecordFormatVersion.1),
      .unsigned (UInt64.ofNat pairRecordFormatVersion.2.1),
      .unsigned (UInt64.ofNat pairRecordFormatVersion.2.2)]

def millisecondsPerDay : UInt64 := 86400000

def pairingIdleExpiryMs : UInt64 := 30 * millisecondsPerDay

abbrev StaticKey := FixedBytes x25519KeySize

def allZero (key : StaticKey) : Bool :=
  key.val.all (· = 0)

inductive PairRecordError where
  | invalidStaticKey
  | noNegotiatedProfiles
  deriving DecidableEq

inductive PairRecordCodecError where
  | invalidInput
  | protocolFailure
  | unsupportedVersion
  | invalidRecord (error : PairRecordError)
  deriving DecidableEq

/-- Long-term pairing material. No key is all zero and some profile was
negotiated, whichever way the record came about. -/
@[ext] structure PairRecord where
  pairId : PairId
  role : EndpointRole
  localStaticPrivate : StaticKey
  localStaticPublic : StaticKey
  remoteStaticPublic : StaticKey
  grantsHash : GrantsHash
  profiles : List ProfileName
  peerDisplayName : DisplayName
  createdAtMs : UInt64
  storageConfirmed : Bool
  forgottenAtMs : Option UInt64
  lastSessionAtMs : Option UInt64
  keysValid : (allZero localStaticPrivate || allZero localStaticPublic ||
    allZero remoteStaticPublic) = false
  profilesNegotiated : profiles ≠ []
  deriving DecidableEq

/-- What a sweep did with one pairing. -/
inductive SweepOutcome where
  | recorded
  | kept
  | expired
  deriving DecidableEq

inductive RecordStoreError (ε : Type) where
  | encoding (error : PairRecordCodecError)
  | store (error : ε)

/-- The times a sweep would leave, and what it would have done. -/
structure SweepPlan where
  outcome : SweepOutcome
  lastSessionAtMs : Option UInt64
  forgottenAtMs : Option UInt64

def laterSession (recordedMs : Option UInt64) (atMs : UInt64) : UInt64 :=
  match recordedMs with
  | some recordedMs => if atMs ≤ recordedMs then recordedMs else atMs
  | none => atMs

def EndpointRole.recordName : EndpointRole → String
  | .requester => "requester"
  | .proxy => "proxy"

def optionalTime : Option UInt64 → WireValue
  | none => .null
  | some atMs => .unsigned atMs

namespace PairRecord

def new (pairId : PairId) (role : EndpointRole)
    (localStaticPrivate localStaticPublic remoteStaticPublic : StaticKey)
    (grantsHash : GrantsHash) (profiles : List ProfileName) (peerDisplayName : DisplayName)
    (createdAtMs : UInt64) : Except PairRecordError PairRecord :=
  if hKeys : allZero localStaticPrivate || allZero localStaticPublic ||
      allZero remoteStaticPublic then .error .invalidStaticKey
  else if hProfiles : profiles = [] then .error .noNegotiatedProfiles
  else
    .ok
      { pairId, role, localStaticPrivate, localStaticPublic, remoteStaticPublic, grantsHash,
        profiles, peerDisplayName, createdAtMs
        storageConfirmed := true
        forgottenAtMs := none
        lastSessionAtMs := none
        keysValid := Bool.eq_false_of_not_eq_true hKeys
        profilesNegotiated := hProfiles }

variable (record : PairRecord)

/-- The record as the pairing flow stores it, before the peer confirms. -/
def awaitingStorageConfirmation : PairRecord :=
  { record with storageConfirmed := false }

/-- The record once both confirmations have been exchanged. -/
def confirmStorage : PairRecord :=
  { record with storageConfirmed := true }

/-- A record already forgotten keeps its first time. -/
def forgotten (atMs : UInt64) : PairRecord :=
  if record.forgottenAtMs.isNone then { record with forgottenAtMs := some atMs } else record

/-- The recorded session time only moves forward. -/
def withSessionAt (atMs : UInt64) : PairRecord :=
  { record with lastSessionAtMs := some (laterSession record.lastSessionAtMs atMs) }

/-- Whether the idle limit has passed since creation and the last session. -/
def idleLimitReached (nowMs : UInt64) : Bool :=
  let sinceMs :=
    match record.lastSessionAtMs with
    | some atMs => if record.createdAtMs < atMs then atMs else record.createdAtMs
    | none => record.createdAtMs
  pairingIdleExpiryMs.toNat ≤ nowMs.toNat - sinceMs.toNat

def planSweep (nowMs : UInt64) (sessionEstablished : Bool) : SweepPlan :=
  let unchanged : SweepPlan := ⟨.kept, record.lastSessionAtMs, record.forgottenAtMs⟩
  if !record.storageConfirmed || record.forgottenAtMs.isSome then unchanged
  else if sessionEstablished then
    { unchanged with
      outcome := .recorded
      lastSessionAtMs := some (laterSession record.lastSessionAtMs nowMs) }
  else if record.idleLimitReached nowMs then
    { unchanged with outcome := .expired, forgottenAtMs := some nowMs }
  else unchanged

/-- The map of the stored form, with the times and the private key given. -/
def storedMap (forgottenAtMs lastSessionAtMs : Option UInt64) (localStaticPrivate : Bytes) : Body :=
  BTreeMap.ofList [("format_version", pairRecordFormatValue), ("pair_id", .bytes record.pairId.val),
      ("role", .text record.role.recordName), ("local_static_private", .bytes localStaticPrivate),
      ("local_static_public", .bytes record.localStaticPublic.val),
      ("remote_static_public", .bytes record.remoteStaticPublic.val),
      ("grants_hash", .bytes record.grantsHash.val),
      ("profiles", .array (record.profiles.map fun profile => .text profile.asStr)),
      ("peer_display_name", .text record.peerDisplayName.text),
      ("created_at_ms", .unsigned record.createdAtMs),
      ("storage_confirmed", .bool record.storageConfirmed),
      ("forgotten_at_ms", optionalTime forgottenAtMs),
      ("last_session_at_ms", optionalTime lastSessionAtMs)]

/-- The stored form with the given times. A first pass encodes the map with
zeros for the private key, which only fixes the length; the key replaces them
in the map before the second pass. -/
def encodeWithTimes (forgottenAtMs lastSessionAtMs : Option UInt64) :
    Except PairRecordCodecError Bytes := do
  let map := record.storedMap forgottenAtMs lastSessionAtMs (List.replicate x25519KeySize 0)
  let _ ← (encodeDeterministicCbor (.map map)).mapError fun _ => .protocolFailure
  let keyed := map.insert "local_static_private" (.bytes record.localStaticPrivate.val)
  (encodeDeterministicCbor (.map keyed)).mapError fun _ => .protocolFailure

def encode : Except PairRecordCodecError Bytes :=
  record.encodeWithTimes record.forgottenAtMs record.lastSessionAtMs

section Changes
variable {ε : Type}

/-- One idle-expiry check. The changed record is stored before it is made. -/
def sweep (record : PairRecord) (nowMs : UInt64) (sessionEstablished : Bool)
    (store : Bytes → Except ε Unit) : Except (RecordStoreError ε) SweepOutcome × PairRecord :=
  let plan := record.planSweep nowMs sessionEstablished
  if plan.outcome = .kept then (.ok plan.outcome, record)
  else
    match record.encodeWithTimes plan.forgottenAtMs plan.lastSessionAtMs with
    | .error error => (.error (.encoding error), record)
    | .ok encoded =>
      match store encoded with
      | .error error => (.error (.store error), record)
      | .ok () =>
        (.ok plan.outcome, { record with
            lastSessionAtMs := plan.lastSessionAtMs
            forgottenAtMs := plan.forgottenAtMs })

/-- Keep the name the peer sent, once it is stored. -/
def recordPeerDisplayName (record : PairRecord) (name : DisplayName)
    (store : Bytes → Except ε Unit) : Except (RecordStoreError ε) Bool × PairRecord :=
  if record.peerDisplayName = name then (.ok false, record)
  else
    let renamed := { record with peerDisplayName := name }
    match renamed.encode with
    | .error error => (.error (.encoding error), record)
    | .ok encoded =>
      match store encoded with
      | .error error => (.error (.store error), record)
      | .ok () => (.ok true, renamed)

end Changes

/-! Reading the stored form. Every refusal of a field is `InvalidInput`. -/

abbrev RecordReader (α : Type) := Fields String WireValue PairRecordCodecError α

def takeRecord {α : Type} (select : WireValue → Option α) (key : String) : RecordReader α :=
  takeField .invalidInput .invalidInput select key

def asRole? : WireValue → Option EndpointRole
  | .text name =>
    if name = "requester" then some .requester
    else if name = "proxy" then some .proxy
    else none
  | _ => none

def asDisplayName? : WireValue → Option DisplayName
  | .text name => (DisplayName.parse name).toOption
  | _ => none

def asOptionalUnsigned? : WireValue → Option (Option UInt64)
  | .null => some none
  | .unsigned value => some (some value)
  | _ => none

section Selectors
variable {value : WireValue}

theorem asRole?_eq_some {role} : asRole? value = some role ↔ value = .text role.recordName := by
  cases value with
  | text name =>
    simp only [asRole?, WireValue.text.injEq]
    constructor
    · intro h
      split_ifs at h with hRequester hProxy <;> cases h <;> assumption
    · rintro rfl
      cases role <;> decide
  | _ => simp [asRole?]

theorem asDisplayName?_eq_some {name} :
    asDisplayName? value = some name ↔ value = .text name.text := by
  cases value with
  | text text =>
    rw [WireValue.text.injEq, ← DisplayName.parse_eq_ok, asDisplayName?]
    cases DisplayName.parse text <;> simp [Except.toOption]
  | _ => simp [asDisplayName?]

theorem asOptionalUnsigned?_eq_some {atMs} :
    asOptionalUnsigned? value = some atMs ↔ value = optionalTime atMs := by
  cases value <;> cases atMs <;> simp [asOptionalUnsigned?, optionalTime]

end Selectors

/-- The keys of the stored form. -/
def expectedKeys : List String :=
  ["format_version", "pair_id", "role", "local_static_private", "local_static_public",
    "remote_static_public", "grants_hash", "profiles", "peer_display_name", "created_at_ms",
    "storage_confirmed", "forgotten_at_ms", "last_session_at_ms"]

/-- What the decoder does to the record `new` gives it. -/
def restored (storageConfirmed : Bool)
    (forgottenAtMs lastSessionAtMs : Option UInt64) : PairRecord :=
  let record := if storageConfirmed then record else record.awaitingStorageConfirmation
  let record :=
    match lastSessionAtMs with
    | some atMs => record.withSessionAt atMs
    | none => record
  match forgottenAtMs with
  | some atMs => record.forgotten atMs
  | none => record

def takeFields : RecordReader PairRecord := do
  rejectOutside .invalidInput expectedKeys
  let version ← takeRecord some "format_version"
  ensure (version = pairRecordFormatValue) .unsupportedVersion
  let pairId ← takeRecord (WireValue.asFixed? pairIdSize) "pair_id"
  let role ← takeRecord asRole? "role"
  let localStaticPrivate ← takeRecord (WireValue.asFixed? x25519KeySize) "local_static_private"
  let localStaticPublic ← takeRecord (WireValue.asFixed? x25519KeySize) "local_static_public"
  let remoteStaticPublic ← takeRecord (WireValue.asFixed? x25519KeySize) "remote_static_public"
  let grantsHash ← takeRecord (WireValue.asFixed? grantsHashSize) "grants_hash"
  let names ← takeRecord WireValue.asArray? "profiles"
  let profiles ← liftM (selectAll PairRecordCodecError.invalidInput WireValue.asProfile? names)
  let peerDisplayName ← takeRecord asDisplayName? "peer_display_name"
  let createdAtMs ← takeRecord WireValue.asUnsigned? "created_at_ms"
  let storageConfirmed ← takeRecord WireValue.asBool? "storage_confirmed"
  let forgottenAtMs ← takeRecord asOptionalUnsigned? "forgotten_at_ms"
  let lastSessionAtMs ← takeRecord asOptionalUnsigned? "last_session_at_ms"
  requireEmpty .invalidInput
  let record ← liftM ((new pairId role localStaticPrivate localStaticPublic remoteStaticPublic
    grantsHash profiles peerDisplayName createdAtMs).mapError PairRecordCodecError.invalidRecord)
  pure (record.restored storageConfirmed forgottenAtMs lastSessionAtMs)

def decode (bytes : Bytes) : Except PairRecordCodecError PairRecord := do
  match ← (decodeDeterministicCbor bytes).mapError fun _ => .invalidInput with
  | .map map => do
      let (record, _) ← takeFields map
      .ok record
  | _ => .error .invalidInput

end PairRecord

end RefineId.Rapp
