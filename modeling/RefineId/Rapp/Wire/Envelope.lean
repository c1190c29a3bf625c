import RefineId.Data.Fields
import RefineId.Rapp.Wire.RoundTrip

/-! Message envelopes and the field table every body is checked against. -/
namespace RefineId.Rapp

open Data List

inductive MessageType where
  | pairingHello
  | pairingConfirm
  | pairingAbort
  | pairingStored
  | sessionReady
  | sessionHello
  | sessionClose
  | livenessPing
  | livenessPong
  | operationRequest
  | operationResult
  | operationProgress
  | cardStatus
  | error
  deriving DecidableEq

namespace MessageType

def asStr : MessageType → String
  | pairingHello => "pairing.hello"
  | pairingConfirm => "pairing.confirm"
  | pairingAbort => "pairing.abort"
  | pairingStored => "pairing.stored"
  | sessionReady => "session.ready"
  | sessionHello => "session.hello"
  | sessionClose => "session.close"
  | livenessPing => "liveness.ping"
  | livenessPong => "liveness.pong"
  | operationRequest => "operation.request"
  | operationResult => "operation.result"
  | operationProgress => "operation.progress"
  | cardStatus => "card.status"
  | error => "error"

def parse (value : String) : Except WireError MessageType :=
  match value with
  | "pairing.hello" => .ok pairingHello
  | "pairing.confirm" => .ok pairingConfirm
  | "pairing.abort" => .ok pairingAbort
  | "pairing.stored" => .ok pairingStored
  | "session.ready" => .ok sessionReady
  | "session.hello" => .ok sessionHello
  | "session.close" => .ok sessionClose
  | "liveness.ping" => .ok livenessPing
  | "liveness.pong" => .ok livenessPong
  | "operation.request" => .ok operationRequest
  | "operation.result" => .ok operationResult
  | "operation.progress" => .ok operationProgress
  | "card.status" => .ok cardStatus
  | "error" => .ok error
  | _ => .error .unknownMessageType

@[simp] theorem parse_asStr (messageType : MessageType) :
    parse messageType.asStr = .ok messageType := by
  cases messageType <;> rfl

end MessageType

inductive FieldType where
  | unsigned
  | bytes (length : Nat)
  | text
  | array
  | map
  | bool
  deriving DecidableEq

structure FieldSpec where
  name : String
  fieldType : FieldType
  optional : Bool

def operationIdField : FieldType := .bytes 16

def pairIdField : FieldType := .bytes 16

def certificateFingerprintField : FieldType := .bytes 32

/-- The registered fields of each body. -/
def fieldSpecs : MessageType → List FieldSpec
  | .pairingHello =>
    [⟨"parameters", .map, false⟩, ⟨"display_name", .text, false⟩, ⟨"platform", .text, false⟩,
      ⟨"requested_profiles", .array, true⟩]
  | .pairingConfirm => [⟨"granted_profiles", .array, false⟩]
  | .pairingAbort => [⟨"reason", .text, false⟩]
  | .pairingStored => [⟨"pair_id", pairIdField, false⟩]
  | .cardStatus =>
    [⟨"card_present", .bool, false⟩, ⟨"reader_attached", .bool, false⟩,
      ⟨"certificate_fingerprint", certificateFingerprintField, false⟩]
  | .sessionReady =>
    [⟨"parameters", .map, false⟩, ⟨"nonce", .bytes 32, false⟩, ⟨"display_name", .text, false⟩]
  | .sessionHello => [⟨"display_name", .text, false⟩]
  | .sessionClose => [⟨"reason", .text, false⟩]
  | .livenessPing | .livenessPong => [⟨"challenge", .bytes 32, false⟩]
  | .operationRequest =>
    [⟨"operation_id", operationIdField, false⟩, ⟨"profile", .text, false⟩,
      ⟨"action", .text, false⟩, ⟨"context", .map, false⟩, ⟨"payload", .map, false⟩,
      ⟨"expires_after_ms", .unsigned, true⟩]
  | .operationResult =>
    [⟨"operation_id", operationIdField, false⟩, ⟨"status", .text, false⟩,
      ⟨"response", .map, true⟩, ⟨"error", .text, true⟩]
  | .operationProgress => [⟨"operation_id", operationIdField, false⟩, ⟨"event", .text, false⟩]
  | .error =>
    [⟨"error_name", .text, false⟩, ⟨"message", .text, false⟩,
      ⟨"operation_id", operationIdField, true⟩]

def FieldType.admits : FieldType → WireValue → Bool
  | .unsigned, .unsigned _ => true
  | .bytes length, .bytes content => content.length = length
  | .text, .text _ => true
  | .array, .array _ => true
  | .map, .map _ => true
  | .bool, .bool _ => true
  | _, _ => false

def validateField (spec : FieldSpec) (value : WireValue) : Except WireError Unit :=
  if spec.fieldType.admits value then .ok () else .error (.wrongType spec.name)

def bodyText (body : Body) (field : String) : Option String :=
  match body.get? field with
  | some (.text value) => some value
  | _ => none

def closeReasonNames : List String :=
  ["normal", "complete", "user_disconnect", "policy", "protocol_violation", "pairing_revoked",
    "shutdown", "card_unavailable", "service_withdrawn"]

def resultStatusNames : List String :=
  ["completed", "rejected", "cancelled"]

variable (messageType : MessageType)

/-- Checks on registered text values, for the messages that have them. -/
def validateDiscriminants (body : Body) : Except WireError Unit :=
  match messageType with
  | .sessionClose =>
    if (bodyText body "reason").any closeReasonNames.contains then .ok ()
    else .error (.invalidValue "reason")
  | .operationResult =>
    if (bodyText body "status").any resultStatusNames.contains then .ok ()
    else .error (.invalidValue "status")
  | .error =>
    if !(bodyText body "error_name").any (fun name => 1 ≤ byteLen name && byteLen name ≤ 64) then
      .error (.invalidValue "error_name")
    else if !(bodyText body "message").any
        (fun message => 1 ≤ byteLen message && byteLen message ≤ 512) then
      .error (.invalidValue "message")
    else .ok ()
  | _ => .ok ()

/-- Each registered field in table order: an absent one must be optional. -/
def validateFields (body : Body) : List FieldSpec → Except WireError Unit
  | [] => .ok ()
  | spec :: rest =>
    match body.get? spec.name with
    | none =>
      if spec.optional then validateFields body rest else .error (.missingField spec.name)
    | some value => do
        validateField spec value
        validateFields body rest

def rejectUnknownFields (map : Body) (known : List String) : Except WireError Unit :=
  if map.keys.list.any (fun key => !known.contains key) then .error .unknownField else .ok ()

/-- Lookups alone decide whether a map has unregistered fields. -/
theorem rejectUnknownFields_ok_iff {map known} :
    rejectUnknownFields map known = .ok () ↔ ∀ key, key ∉ known → map.get? key = none := by
  have hAny : map.keys.list.any (fun key => !known.contains key) = true ↔
      ∃ key, key ∉ known ∧ map.get? key ≠ none := by
    simp only [any_eq_true, Bool.not_eq_true', contains_eq_mem, decide_eq_false_iff_not,
      ne_eq, BTreeMap.get?_eq_none_iff, not_not]
    exact exists_congr fun key => and_comm
  rw [rejectUnknownFields]
  split
  · rename_i hUnknown
    obtain ⟨key, hKey, hGet⟩ := hAny.mp hUnknown
    exact iff_of_false (by simp) fun h => hGet (h key hKey)
  · rename_i hKnown
    refine iff_of_true rfl fun key hKey => ?_
    by_contra hGet
    exact hKnown (hAny.mpr ⟨key, hKey, hGet⟩)

def validateBody (body : Body) : Except WireError Unit := do
  rejectUnknownFields body ((fieldSpecs messageType).map FieldSpec.name)
  validateFields body (fieldSpecs messageType)
  validateDiscriminants messageType body

namespace WireValue

def asUnsigned? : WireValue → Option UInt64
  | .unsigned value => some value
  | _ => none

def asText? : WireValue → Option String
  | .text value => some value
  | _ => none

def asBytes? : WireValue → Option Bytes
  | .bytes value => some value
  | _ => none

def asArray? : WireValue → Option (List WireValue)
  | .array value => some value
  | _ => none

def asMap? : WireValue → Option Body
  | .map value => some value
  | _ => none

/-! Each shape determines the value. -/

variable {value : WireValue}

theorem asUnsigned?_eq_some {found} : value.asUnsigned? = some found ↔ value = .unsigned found := by
  cases value <;> simp [asUnsigned?]

theorem asText?_eq_some {found} : value.asText? = some found ↔ value = .text found := by
  cases value <;> simp [asText?]

theorem asBytes?_eq_some {found} : value.asBytes? = some found ↔ value = .bytes found := by
  cases value <;> simp [asBytes?]

theorem asArray?_eq_some {found} : value.asArray? = some found ↔ value = .array found := by
  cases value <;> simp [asArray?]

theorem asMap?_eq_some {found} : value.asMap? = some found ↔ value = .map found := by
  cases value <;> simp [asMap?]

end WireValue

/-- The `take_*` helpers of the envelope: a missing field and a field of the
wrong type are told apart. -/
def takeWire {α : Type} (select : WireValue → Option α) (field : String) :
    Fields String WireValue WireError α :=
  takeField (.missingField field) (.wrongType field) select field

def versionValues : List WireValue :=
  [.unsigned (UInt64.ofNat wireVersion.1), .unsigned (UInt64.ofNat wireVersion.2.1),
    .unsigned (UInt64.ofNat wireVersion.2.2)]

def isWireVersion : List WireValue → Bool
  | [.unsigned year, .unsigned month, .unsigned day] =>
    year = UInt64.ofNat wireVersion.1 && month = UInt64.ofNat wireVersion.2.1 &&
      day = UInt64.ofNat wireVersion.2.2
  | _ => false

/-- One decrypted message: its type, the channel it belongs to, its place in
its direction and its fields. -/
structure Envelope where
  messageType : MessageType
  sessionId : SessionId
  sequence : UInt64
  body : Body

namespace Envelope

def reconstruct (messageType : MessageType) (sessionId : SessionId) (sequence : UInt64)
    (body : Body) : Except WireError Envelope := do
  validateBody messageType body
  .ok ⟨messageType, sessionId, sequence, body⟩

def toMap (envelope : Envelope) : Body :=
  BTreeMap.ofList [("version", .array versionValues), ("type", .text envelope.messageType.asStr),
      ("session_id", .bytes envelope.sessionId.val), ("sequence", .unsigned envelope.sequence),
      ("body", .map envelope.body)]

def encode (envelope : Envelope) : Except WireError Bytes := do
  let encoded ← encodeDeterministicCbor (.map envelope.toMap)
  if maxFramePlaintext < encoded.length then .error (.oversizedPlaintext encoded.length)
  else .ok encoded

/-- The fields of an envelope, taken from its map in the order the source
takes them. -/
def takeEnvelope : Fields String WireValue WireError Envelope := do
  let version ← takeWire WireValue.asArray? "version"
  if !isWireVersion version then throw .unsupportedVersion
  else do
    let messageType ← MessageType.parse (← takeWire WireValue.asText? "type")
    let sessionBytes ← takeWire WireValue.asBytes? "session_id"
    match reconstructIdentifier sessionIdSize sessionBytes with
    | .error _ => throw (.wrongLength "session_id" sessionIdSize sessionBytes.length)
    | .ok sessionId => do
        let sequence ← takeWire WireValue.asUnsigned? "sequence"
        let body ← takeWire WireValue.asMap? "body"
        validateBody messageType body
        pure ⟨messageType, sessionId, sequence, body⟩

def decode (bytes : Bytes) : Except WireError Envelope :=
  if maxFramePlaintext < bytes.length then .error (.oversizedPlaintext bytes.length)
  else do
    match ← decodeDeterministicCbor bytes with
    | .map map => do
        rejectUnknownFields map ["version", "type", "session_id", "sequence", "body"]
        let (envelope, _) ← takeEnvelope map
        .ok envelope
    | _ => .error (.wrongType "envelope")

theorem toMap_get? (envelope : Envelope) (key : String) : envelope.toMap.get? key =
      if key = "body" then some (.map envelope.body)
      else if key = "sequence" then some (.unsigned envelope.sequence)
      else if key = "session_id" then some (.bytes envelope.sessionId.val)
      else if key = "type" then some (.text envelope.messageType.asStr)
      else if key = "version" then some (.array versionValues)
      else none := by
  simp only [toMap, BTreeMap.ofList, BTreeMap.insertAll, foldl_cons, foldl_nil,
    BTreeMap.get?_insert, BTreeMap.get?_empty]

variable {envelope : Envelope}

theorem takeEnvelope_toMap (hBody : validateBody envelope.messageType envelope.body = .ok ()) :
    ∃ rest, takeEnvelope envelope.toMap = .ok (envelope, rest) := by
  have hVersion : isWireVersion versionValues = true := by decide
  simp [takeEnvelope, takeWire, takeField, toMap_get?, BTreeMap.get?_erase, WireValue.asArray?,
    WireValue.asText?, WireValue.asBytes?, WireValue.asUnsigned?, WireValue.asMap?, hVersion, hBody]

theorem encode_ok {bytes} (h : envelope.encode = .ok bytes) :
    encodeDeterministicCbor (.map envelope.toMap) = .ok bytes ∧
      bytes.length ≤ maxFramePlaintext := by
  obtain ⟨encoded, hEncoded, h⟩ := bind_eq_ok.mp h
  split_ifs at h
  cases h
  exact ⟨hEncoded, not_lt.mp ‹_›⟩

theorem decode_of_encode {bytes} (hBody : validateBody envelope.messageType envelope.body = .ok ())
    (h : envelope.encode = .ok bytes) : decode bytes = .ok envelope := by
  obtain ⟨hEncoded, hSize⟩ := encode_ok h
  obtain ⟨rest, hTake⟩ := takeEnvelope_toMap hBody
  have hKnown : rejectUnknownFields envelope.toMap
      ["version", "type", "session_id", "sequence", "body"] = .ok () := by
    refine rejectUnknownFields_ok_iff.mpr fun key hKey => ?_
    simp only [mem_cons, not_mem_nil, or_false, not_or] at hKey
    simp [toMap_get?, hKey]
  rw [decode, if_neg (not_lt.mpr hSize), Rapp.decode_of_encode hEncoded hSize]
  simp [hKnown, hTake]

end Envelope

end RefineId.Rapp
