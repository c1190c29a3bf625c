import RefineId.Rapp.Authorization

/-! Typed messages and the bodies that carry them
(`crates/rapp/src/message.rs`, `display_name.rs`). -/
namespace RefineId.Rapp

open Data BTreeMap

inductive MessageError where
  | invalidField (field : String)
  | unexpectedField
  | operation (error : CardOperationError)
  deriving DecidableEq

inductive DisplayNameError where
  | blank
  | tooLong
  deriving DecidableEq

def displayNameMaxBytes : Nat := 256

/-- What display names and platform descriptions have in common: bounded in
bytes and not blank. -/
def checkLabel (text : String) : Except DisplayNameError Unit :=
  if displayNameMaxBytes < byteLen text then .error .tooLong
  else if (trim text).isEmpty then .error .blank
  else .ok ()

/-- The name an endpoint gives itself. Only checked texts are names. -/
structure DisplayName where
  text : String
  checked : checkLabel text = .ok ()
  deriving DecidableEq

def DisplayName.parse (text : String) : Except DisplayNameError DisplayName :=
  match hCheck : checkLabel text with
  | .error error => .error error
  | .ok () => .ok ⟨text, hCheck⟩

@[simp] theorem DisplayName.parse_text (name : DisplayName) :
    DisplayName.parse name.text = .ok name := by
  rw [parse]
  split
  · rename_i hError
    rw [name.checked] at hError
    cases hError
  · rfl

theorem DisplayName.parse_eq_ok {text name} :
    DisplayName.parse text = .ok name ↔ text = name.text := by
  constructor
  · intro h
    rw [parse] at h
    split at h
    · cases h
    · cases h
      rfl
  · rintro rfl
    exact parse_text name

/-- Parameter echo of a pairing channel. -/
structure NegotiatedParameters where
  offerHash : FixedBytes 32
  transportProfile : String
  candidateId : String
  deriving DecidableEq

structure PairingHelloMessage where
  parameters : NegotiatedParameters
  displayName : DisplayName
  platform : String
  requestedProfiles : Option (List ProfileName)
  deriving DecidableEq

structure PairingConfirmMessage where
  grantedProfiles : List ProfileName
  deriving DecidableEq

structure PairingAbortMessage where
  reason : String
  deriving DecidableEq

structure PairingStoredMessage where
  pairId : PairId
  deriving DecidableEq

inductive CardPresence where
  | present (fingerprint : CertificateFingerprint)
  | absent
  deriving DecidableEq

inductive CardReader where
  | attached
  | absent
  deriving DecidableEq

structure CardStatusMessage where
  card : CardPresence
  reader : CardReader
  deriving DecidableEq

structure SessionParameters where
  transportProfile : String
  candidateId : String
  grantsHash : GrantsHash
  deriving DecidableEq

structure SessionReadyMessage where
  parameters : SessionParameters
  nonce : FixedBytes sessionReadyNonceSize
  displayName : DisplayName
  deriving DecidableEq

structure SessionHelloMessage where
  displayName : DisplayName
  deriving DecidableEq

structure SessionCloseMessage where
  reason : CloseReason
  deriving DecidableEq

abbrev PingChallenge := FixedBytes livenessChallengeSize

structure LivenessMessage where
  challenge : PingChallenge
  deriving DecidableEq

/-- A registered error name and the operation it concerns, if any. -/
structure ProtocolErrorMessage where
  error : ResultError
  operationId : Option OperationId
  deriving DecidableEq

namespace ProtocolErrorMessage

def busy (operationId : OperationId) : ProtocolErrorMessage :=
  ⟨.busy, some operationId⟩

def duplicate (operationId : OperationId) : ProtocolErrorMessage :=
  ⟨.duplicateOperation, some operationId⟩

def message (value : ProtocolErrorMessage) : String :=
  match value.error with
  | .busy => "Another operation of this session is live."
  | .duplicateOperation => "The operation identifier was already used on this session."
  | .invalidLifetime => "The operation lifetime is zero."
  | .operationExpired => "The operation deadline passed."
  | .unauthorized => "The profile is not granted to this pairing."
  | .unsupportedParameter => "A parameter is not supported."
  | .userCancelled => "The holder declined."
  | .retryFloor => "The card's remaining attempts are reserved for its issuer's software."
  | .cardError => "The card did not answer."
  | .operationFailed => "The operation could not be carried out."

end ProtocolErrorMessage

/-- A fully typed message. A refused request is inbound only. -/
inductive TypedMessage where
  | pairingHello (value : PairingHelloMessage)
  | pairingConfirm (value : PairingConfirmMessage)
  | pairingAbort (value : PairingAbortMessage)
  | pairingStored (value : PairingStoredMessage)
  | sessionReady (value : SessionReadyMessage)
  | sessionHello (value : SessionHelloMessage)
  | sessionClose (value : SessionCloseMessage)
  | livenessPing (value : LivenessMessage)
  | livenessPong (value : LivenessMessage)
  | operationRequest (value : OperationRequest)
  | operationRequestRefused (value : OperationRequestRefusal)
  | operationResult (value : OperationResultMessage)
  | operationProgress (value : OperationProgressMessage)
  | cardStatus (value : CardStatusMessage)
  | error (value : ProtocolErrorMessage)

def TypedMessage.messageType : TypedMessage → MessageType
  | pairingHello _ => .pairingHello
  | pairingConfirm _ => .pairingConfirm
  | pairingAbort _ => .pairingAbort
  | pairingStored _ => .pairingStored
  | sessionReady _ => .sessionReady
  | sessionHello _ => .sessionHello
  | sessionClose _ => .sessionClose
  | livenessPing _ => .livenessPing
  | livenessPong _ => .livenessPong
  | operationRequest _ | operationRequestRefused _ => .operationRequest
  | operationResult _ => .operationResult
  | operationProgress _ => .operationProgress
  | cardStatus _ => .cardStatus
  | error _ => .error

/-- The identifier under which a message asks for an operation. -/
def TypedMessage.requestedId? : TypedMessage → Option OperationId
  | operationRequest request => some request.operationId
  | operationRequestRefused refusal => some refusal.operationId
  | _ => none

abbrev BodyFields (α : Type) := Fields String WireValue MessageError α

/-- The `take_*` helpers of messages. -/
def takeBody {α : Type} (select : WireValue → Option α) (field : String) : BodyFields α :=
  takeField (.invalidField field) (.invalidField field) select field

def WireValue.asBool? : WireValue → Option Bool
  | .bool value => some value
  | _ => none

def WireValue.asFixed? (size : Nat) : WireValue → Option (FixedBytes size)
  | .bytes value => FixedBytes.ofSlice? size value
  | _ => none

variable {value : WireValue}

theorem WireValue.asBool?_eq_some {found} : value.asBool? = some found ↔ value = .bool found := by
  cases value <;> simp [asBool?]

theorem WireValue.asFixed?_eq_some {size found} :
    value.asFixed? size = some found ↔ value = .bytes found.val := by
  cases value <;> simp [asFixed?, FixedBytes.ofSlice?_eq_some]

open WireValue

def takeFixed (size : Nat) (field : String) : BodyFields (FixedBytes size) :=
  takeBody (asFixed? size) field

def requireNoFields : BodyFields Unit :=
  requireEmpty .unexpectedField

def readBody {α : Type} (reader : BodyFields α) (body : Body) : Except MessageError α := do
  let (value, _) ← reader body
  .ok value

def validateName (value field : String) : Except MessageError Unit :=
  match checkLabel value with
  | .error _ => .error (.invalidField field)
  | .ok () => .ok ()

def validateLabel (value field : String) : Except MessageError Unit :=
  if (trim value).isEmpty || 4096 < byteLen value then .error (.invalidField field) else .ok ()

/-- ASCII letters, digits and the marks a transport name may use. -/
def transportNameByte (byte : UInt8) : Bool :=
  (48 ≤ byte && byte ≤ 57) || (65 ≤ byte && byte ≤ 90) || (97 ≤ byte && byte ≤ 122) ||
    byte = 46 || byte = 45 || byte = 95

def validateTransportName (value field : String) : Except MessageError Unit :=
  if byteLen value = 0 || 255 < byteLen value || !(asBytes value).all transportNameByte then
    .error (.invalidField field)
  else .ok ()

def takeDisplayName : BodyFields DisplayName := do
  match DisplayName.parse (← takeBody asText? "display_name") with
  | .error _ => throw (.invalidField "display_name")
  | .ok name => pure name

/-- Registry order: bytewise on names. -/
def profileLe (left right : ProfileName) : Prop :=
  asBytes left.asStr ≤ asBytes right.asStr

instance : DecidableRel profileLe :=
  fun left right => inferInstanceAs (Decidable (asBytes left.asStr ≤ asBytes right.asStr))

variable (profiles : List ProfileName)

def sortProfiles : List ProfileName :=
  profiles.insertionSort profileLe

def adjacentEqual : List Bytes → Bool
  | first :: second :: rest => first = second || adjacentEqual (second :: rest)
  | _ => false

def validateProfileSet : Except MessageError Unit :=
  let names := (profiles.map fun profile => asBytes profile.asStr).insertionSort (· ≤ ·)
  if profiles.isEmpty || adjacentEqual names then .error (.invalidField "profiles") else .ok ()

def profileArray : WireValue :=
  .array ((sortProfiles profiles).map fun profile => .text profile.asStr)

def WireValue.asProfile? : WireValue → Option ProfileName
  | .text name => ProfileName.parse name
  | _ => none

theorem WireValue.asProfile?_eq_some {profile} :
    value.asProfile? = some profile ↔ value = .text profile.asStr := by
  cases value <;> simp [asProfile?, ProfileName.parse_eq_some]

def profilesFromArray (values : List WireValue) : Except MessageError (List ProfileName) := do
  let profiles ← selectAll (.invalidField "profiles") asProfile? values
  validateProfileSet profiles
  .ok (sortProfiles profiles)

def versionValue : WireValue :=
  .array versionValues

def WireValue.asVersion? : WireValue → Option Unit
  | .array values => if isWireVersion values then some () else none
  | _ => none

def requireVersion : BodyFields Unit :=
  takeBody asVersion? "version"

def WireValue.asPairingSuite? : WireValue → Option Unit
  | .text suite =>
    if suite = cpaceKc2Suite || suite = mandatoryPairingSuite then some () else none
  | _ => none

def requirePairingSuite : BodyFields Unit :=
  takeBody asPairingSuite? "suite"

def negotiatedParametersToMap (value : NegotiatedParameters) : Body :=
  ofList [("version", versionValue), ("suite", .text cpaceKc2Suite),
      ("offer_hash", .bytes value.offerHash.val),
      ("transport_profile", .text value.transportProfile),
      ("candidate_id", .text value.candidateId)]

def takeNegotiatedParameters : BodyFields NegotiatedParameters := do
  requireVersion
  requirePairingSuite
  let offerHash ← takeFixed 32 "offer_hash"
  let transportProfile ← takeBody asText? "transport_profile"
  let candidateId ← takeBody asText? "candidate_id"
  requireNoFields
  validateTransportName transportProfile "transport_profile"
  validateLabel candidateId "candidate_id"
  pure ⟨offerHash, transportProfile, candidateId⟩

def negotiatedParametersFromMap (map : Body) : Except MessageError NegotiatedParameters :=
  readBody takeNegotiatedParameters map

def pairingHelloToBody (value : PairingHelloMessage) : Except MessageError Body := do
  validateName value.platform "platform"
  validateTransportName value.parameters.transportProfile "transport_profile"
  validateLabel value.parameters.candidateId "candidate_id"
  let body := ofList [("parameters", .map (negotiatedParametersToMap value.parameters)),
      ("display_name", .text value.displayName.text), ("platform", .text value.platform)]
  match value.requestedProfiles with
  | none => .ok body
  | some profiles => do
      validateProfileSet profiles
      .ok (body.insert "requested_profiles" (profileArray profiles))

def takePairingHello : BodyFields PairingHelloMessage := do
  let parameters ← negotiatedParametersFromMap (← takeBody asMap? "parameters")
  let displayName ← takeDisplayName
  let platform ← takeBody asText? "platform"
  let values ← takeOptional (.invalidField "requested_profiles") asArray?
    "requested_profiles"
  let requestedProfiles ← liftM (values.mapM profilesFromArray)
  requireNoFields
  validateName platform "platform"
  pure ⟨parameters, displayName, platform, requestedProfiles⟩

def pairingConfirmToBody (value : PairingConfirmMessage) : Except MessageError Body := do
  validateProfileSet value.grantedProfiles
  .ok (ofList [("granted_profiles", profileArray value.grantedProfiles)])

def takePairingConfirm : BodyFields PairingConfirmMessage := do
  let profiles ← profilesFromArray (← takeBody asArray? "granted_profiles")
  requireNoFields
  pure ⟨profiles⟩

def pairingAbortToBody (value : PairingAbortMessage) : Except MessageError Body := do
  validateLabel value.reason "reason"
  .ok (ofList [("reason", .text value.reason)])

def takePairingAbort : BodyFields PairingAbortMessage := do
  let reason ← takeBody asText? "reason"
  requireNoFields
  validateLabel reason "reason"
  pure ⟨reason⟩

def pairingStoredToBody (value : PairingStoredMessage) : Body :=
  ofList [("pair_id", .bytes value.pairId.val)]

def takePairingStored : BodyFields PairingStoredMessage := do
  let pairId ← takeFixed pairIdSize "pair_id"
  requireNoFields
  pure ⟨pairId⟩

/-- Thirty-two zero bytes, which an absent card carries. -/
def zeroFingerprint : CertificateFingerprint :=
  FixedBytes.replicate certificateFingerprintSize 0

def cardStatusToBody (value : CardStatusMessage) : Body :=
  let (present, fingerprint) :=
    match value.card with
    | .present fingerprint => (true, fingerprint)
    | .absent => (false, zeroFingerprint)
  let readerAttached :=
    match value.reader with
    | .attached => true
    | .absent => false
  ofList [("card_present", .bool present), ("reader_attached", .bool readerAttached),
      ("certificate_fingerprint", .bytes fingerprint.val)]

def takeCardStatus : BodyFields CardStatusMessage := do
  let cardPresent ← takeBody asBool? "card_present"
  let readerAttached ← takeBody asBool? "reader_attached"
  let fingerprint ← takeFixed certificateFingerprintSize "certificate_fingerprint"
  requireNoFields
  let reader := if readerAttached then CardReader.attached else CardReader.absent
  match cardPresent, decide (fingerprint = zeroFingerprint) with
  | true, false => pure ⟨.present fingerprint, reader⟩
  | false, true => pure ⟨.absent, reader⟩
  | _, _ => throw (.invalidField "certificate_fingerprint")

def sessionReadyToBody (value : SessionReadyMessage) : Except MessageError Body := do
  validateTransportName value.parameters.transportProfile "transport_profile"
  validateLabel value.parameters.candidateId "candidate_id"
  let parameters := ofList
    [("version", versionValue), ("suite", .text mandatorySessionSuite),
      ("transport_profile", .text value.parameters.transportProfile),
      ("candidate_id", .text value.parameters.candidateId),
      ("grants_hash", .bytes value.parameters.grantsHash.val)]
  .ok (ofList [("parameters", .map parameters), ("nonce", .bytes value.nonce.val),
      ("display_name", .text value.displayName.text)])

def takeSessionParameters : BodyFields SessionParameters := do
  requireVersion
  let suite ← takeBody asText? "suite"
  if suite ≠ mandatorySessionSuite then throw (.invalidField "suite")
  else do
    let transportProfile ← takeBody asText? "transport_profile"
    let candidateId ← takeBody asText? "candidate_id"
    let grantsHash ← takeFixed grantsHashSize "grants_hash"
    requireNoFields
    validateTransportName transportProfile "transport_profile"
    validateLabel candidateId "candidate_id"
    pure ⟨transportProfile, candidateId, grantsHash⟩

/-- The echoed parameters are read only once the body holds nothing else. -/
def takeSessionReady : BodyFields SessionReadyMessage := do
  let map ← takeBody asMap? "parameters"
  let nonce ← takeFixed sessionReadyNonceSize "nonce"
  let displayName ← takeDisplayName
  requireNoFields
  let parameters ← liftM (readBody takeSessionParameters map)
  pure ⟨parameters, nonce, displayName⟩

def sessionHelloToBody (value : SessionHelloMessage) : Body :=
  ofList [("display_name", .text value.displayName.text)]

def takeSessionHello : BodyFields SessionHelloMessage := do
  let displayName ← takeDisplayName
  requireNoFields
  pure ⟨displayName⟩

def closeReasonName : CloseReason → String
  | .normal => "normal"
  | .complete => "complete"
  | .userDisconnect => "user_disconnect"
  | .policy => "policy"
  | .protocolViolation => "protocol_violation"
  | .pairingRevoked => "pairing_revoked"
  | .shutdown => "shutdown"
  | .cardUnavailable => "card_unavailable"
  | .serviceWithdrawn => "service_withdrawn"

def parseCloseReason (value : String) : Except MessageError CloseReason :=
  match value with
  | "normal" => .ok .normal
  | "complete" => .ok .complete
  | "user_disconnect" => .ok .userDisconnect
  | "policy" => .ok .policy
  | "protocol_violation" => .ok .protocolViolation
  | "pairing_revoked" => .ok .pairingRevoked
  | "shutdown" => .ok .shutdown
  | "card_unavailable" => .ok .cardUnavailable
  | "service_withdrawn" => .ok .serviceWithdrawn
  | _ => .error (.invalidField "reason")

@[simp] theorem parseCloseReason_name (reason : CloseReason) :
    parseCloseReason (closeReasonName reason) = .ok reason := by
  cases reason <;> rfl

def sessionCloseToBody (value : SessionCloseMessage) : Body :=
  ofList [("reason", .text (closeReasonName value.reason))]

def takeSessionClose : BodyFields SessionCloseMessage := do
  let reason ← parseCloseReason (← takeBody asText? "reason")
  requireNoFields
  pure ⟨reason⟩

def livenessToBody (value : LivenessMessage) : Body :=
  ofList [("challenge", .bytes value.challenge.val)]

def takeLiveness : BodyFields LivenessMessage := do
  let challenge ← takeFixed livenessChallengeSize "challenge"
  requireNoFields
  pure ⟨challenge⟩

def errorToBody (value : ProtocolErrorMessage) : Body :=
  let body := ofList
    [("error_name", .text value.error.asStr), ("message", .text value.message)]
  match value.operationId with
  | some operationId => body.insert "operation_id" (.bytes operationId.val)
  | none => body

def takeError : BodyFields ProtocolErrorMessage := do
  match ResultError.parse (← takeBody asText? "error_name") with
  | .error _ => throw (.invalidField "error_name")
  | .ok error => do
      let _ ← takeBody asText? "message"
      let operationId ← takeOptional (.invalidField "operation_id")
        (asFixed? operationIdSize) "operation_id"
      requireNoFields
      pure ⟨error, operationId⟩

namespace TypedMessage

/-- The typed message of a decrypted envelope received at a local time. -/
def fromEnvelope (envelope : Envelope) (localStartMs : UInt64) : Except MessageError TypedMessage :=
  match envelope.messageType with
  | .pairingHello => pairingHello <$> readBody takePairingHello envelope.body
  | .pairingConfirm => pairingConfirm <$> readBody takePairingConfirm envelope.body
  | .pairingAbort => pairingAbort <$> readBody takePairingAbort envelope.body
  | .pairingStored => pairingStored <$> readBody takePairingStored envelope.body
  | .sessionReady => sessionReady <$> readBody takeSessionReady envelope.body
  | .sessionHello => sessionHello <$> readBody takeSessionHello envelope.body
  | .sessionClose => sessionClose <$> readBody takeSessionClose envelope.body
  | .livenessPing => livenessPing <$> readBody takeLiveness envelope.body
  | .livenessPong => livenessPong <$> readBody takeLiveness envelope.body
  | .operationRequest =>
    match OperationRequest.fromWireBody envelope.body localStartMs with
    | .ok request => .ok (operationRequest request)
    | .error (.refused refusal) => .ok (operationRequestRefused refusal)
    | .error (.malformed cause) => .error (.operation cause)
  | .operationResult =>
    match OperationResultMessage.fromWireBody envelope.body with
    | .ok result => .ok (operationResult result)
    | .error cause => .error (.operation cause)
  | .operationProgress =>
    match OperationProgressMessage.fromWireBody envelope.body with
    | .ok progress => .ok (operationProgress progress)
    | .error cause => .error (.operation cause)
  | .cardStatus => cardStatus <$> readBody takeCardStatus envelope.body
  | .error => error <$> readBody takeError envelope.body

def toWireBody : TypedMessage → Except MessageError Body
  | pairingHello value => pairingHelloToBody value
  | pairingConfirm value => pairingConfirmToBody value
  | pairingAbort value => pairingAbortToBody value
  | pairingStored value => .ok (pairingStoredToBody value)
  | sessionReady value => sessionReadyToBody value
  | sessionHello value => .ok (sessionHelloToBody value)
  | sessionClose value => .ok (sessionCloseToBody value)
  | livenessPing value | livenessPong value => .ok (livenessToBody value)
  | operationRequest value =>
    match value.toWireBody with
    | .ok body => .ok body
    | .error cause => .error (.operation cause)
  | operationRequestRefused _ => .error (.invalidField "operation")
  | operationResult value =>
    match value.toWireBody with
    | .ok body => .ok body
    | .error cause => .error (.operation cause)
  | operationProgress value => .ok value.toWireBody
  | cardStatus value => .ok (cardStatusToBody value)
  | error value => .ok (errorToBody value)

end TypedMessage

end RefineId.Rapp
