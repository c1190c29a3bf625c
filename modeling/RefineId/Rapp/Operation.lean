import RefineId.Rapp.Result

/-! Operation requests: their validation, their wire form and the refusals
of well-formed requests (`crates/rapp/src/operation.rs`). -/
namespace RefineId.Rapp

open Data WireValue BTreeMap

def defaultOperationLifetimeMs : UInt64 := 300000

def validateNamedDigest (displayName : String) (keyProfile : CardKeyProfile)
    (algorithm : SignatureAlgorithm) (digest : Bytes) : Except CardOperationError Unit :=
  if (trim displayName).isEmpty || !displayNameBytes (byteLen displayName) then
    .error .invalidDisplayContext
  else if digest.length ≠ algorithm.digestSize then .error .wrongDigestLength
  else if !algorithm.supports keyProfile then .error .keyAlgorithmMismatch
  else .ok ()

/-- Whether an envelope at the widest sequence number, on the zero session,
encodes in one frame; `tooLarge` is the error when it does not. -/
def ensureFitsOneFrame (tooLarge : CardOperationError) (messageType : MessageType) (body : Body) :
    Except CardOperationError Unit :=
  match Envelope.reconstruct messageType (FixedBytes.replicate sessionIdSize 0)
      (UInt64.ofNat (2 ^ 64 - 1)) body with
  | .error error => .error (.wire error)
  | .ok envelope =>
    match envelope.encode with
    | .ok _ => .ok ()
    | .error (.oversizedPlaintext _) => .error tooLarge
    | .error error => .error (.wire error)

/-- The largest completed result of a batch must travel in one frame. -/
def ensureBatchResultFitsOneFrame (count : Nat) (keyProfile : CardKeyProfile) :
    Except CardOperationError Unit := do
  let signature : Bytes := List.replicate keyProfile.signatureSize 0
  let result := CardOperationResult.signatures (List.replicate count signature)
  let body ← (OperationResultMessage.completed (FixedBytes.replicate operationIdSize 0)
    result).toWireBody
  ensureFitsOneFrame .batchTooLarge .operationResult body

namespace CardOperation

/-- The documents of a batch in signing order, up to the shorter list. -/
def validateBatch (keyProfile : CardKeyProfile) (algorithm : SignatureAlgorithm) :
    List (String × Bytes) → Except CardOperationError Unit
  | [] => .ok ()
  | (name, digest) :: rest => do
      validateNamedDigest name keyProfile algorithm digest
      validateBatch keyProfile algorithm rest

def validate : CardOperation → Except CardOperationError Unit
  | browserAuthenticate origin keyProfile algorithm digest =>
    validateNamedDigest origin keyProfile algorithm digest
  | signDocument documentName _ keyProfile algorithm digest =>
    validateNamedDigest documentName keyProfile algorithm digest
  | batchSignDocuments documentNames keyProfile algorithm digests =>
    if digests.isEmpty || documentNames.length ≠ digests.length then
      .error (.invalidField "digests")
    else do
      validateBatch keyProfile algorithm (documentNames.zip digests)
      ensureBatchResultFitsOneFrame digests.length keyProfile
  | _ => .ok ()

/-- The registered action with its consent context and its payload. -/
def wireParts : CardOperation → String × Body × Body
  | inspectCard => ("inspect_card", .empty, .empty)
  | readIdentity => ("read_identity", .empty, .empty)
  | readCertificate kind =>
    ("read_certificate", .empty, ofList [("kind", .text kind.wireName)])
  | browserAuthenticate origin keyProfile algorithm digest =>
    ("browser_authenticate", ofList [("origin", .text origin)], ofList
        [("key_profile", .text keyProfile.wireName), ("algorithm", .text algorithm.wireName),
          ("digest", .bytes digest)])
  | signDocument documentName containedFiles keyProfile algorithm digest =>
    let context := ofList [("document_name", .text documentName)]
    let context :=
      match containedFiles with
      | some files => context.insert "contained_files" (.array (files.names.map .text))
      | none => context
    ("sign_document", context, ofList
        [("key_profile", .text keyProfile.wireName), ("algorithm", .text algorithm.wireName),
          ("digest", .bytes digest)])
  | batchSignDocuments documentNames keyProfile algorithm digests =>
    ("batch_sign_documents", ofList [("document_names", .array (documentNames.map .text))],
      ofList
        [("key_profile", .text keyProfile.wireName), ("algorithm", .text algorithm.wireName),
          ("digests", .array (digests.map .bytes))])

def takeTextArray (field : String) : Fields String WireValue CardOperationError (List String) := do
  let values ← takeCard asArray? field
  liftM (selectAll (CardOperationError.invalidField field) asText? values)

def takeOptionalTextArray (field : String) :
    Fields String WireValue CardOperationError (Option (List String)) := fun map =>
  if map.contains field then do
    let (names, rest) ← takeTextArray field map
    .ok (some names, rest)
  else .ok (none, map)

def takeScheme : Fields String WireValue CardOperationError (CardKeyProfile × SignatureAlgorithm) := do
  let keyProfile ← CardKeyProfile.parse (← takeCard asText? "key_profile")
  let algorithm ← SignatureAlgorithm.parse (← takeCard asText? "algorithm")
  pure (keyProfile, algorithm)

/-- The operation an action names, with what is left of its context and its
payload. -/
def takeParts (action : String) (context payload : Body) :
    Except CardOperationError (CardOperation × Body × Body) :=
  match action with
  | "inspect_card" => .ok (inspectCard, context, payload)
  | "read_identity" => .ok (readIdentity, context, payload)
  | "read_certificate" => do
      let (name, payload) ← takeCard asText? "kind" payload
      let kind ← CertificateKind.parse name
      .ok (readCertificate kind, context, payload)
  | "browser_authenticate" => do
      let (origin, context) ← takeCard asText? "origin" context
      let ((keyProfile, algorithm), payload) ← takeScheme payload
      let (digest, payload) ← takeCard asBytes? "digest" payload
      .ok (browserAuthenticate origin keyProfile algorithm digest, context, payload)
  | "sign_document" => do
      let (documentName, context) ← takeCard asText? "document_name" context
      let (names, context) ← takeOptionalTextArray "contained_files" context
      let containedFiles ← names.mapM ContainedFiles.reconstruct
      let ((keyProfile, algorithm), payload) ← takeScheme payload
      let (digest, payload) ← takeCard asBytes? "digest" payload
      .ok (signDocument documentName containedFiles keyProfile algorithm digest, context, payload)
  | "batch_sign_documents" => do
      let (documentNames, context) ← takeTextArray "document_names" context
      let ((keyProfile, algorithm), payload) ← takeScheme payload
      let (values, payload) ← takeCard asArray? "digests" payload
      let digests ← selectAll (.invalidField "digests") asBytes? values
      .ok (batchSignDocuments documentNames keyProfile algorithm digests, context, payload)
  | _ => .error .unknownAction

def fromWireParts (action : String) (context payload : Body) :
    Except CardOperationError CardOperation := do
  let (operation, context, payload) ← takeParts action context payload
  if !context.isEmpty || !payload.isEmpty then .error .unexpectedField
  else do
    operation.validate
    .ok operation

end CardOperation

/-- One operation of a session. The start time is local and never sent. -/
structure OperationRequest where
  operationId : OperationId
  profile : ProfileName
  localStartMs : UInt64
  expiresAfterMs : UInt64
  operation : CardOperation
  deriving DecidableEq

/-- A well-formed request this endpoint cannot serve, answered by a rejected
result. -/
structure OperationRequestRefusal where
  operationId : OperationId
  error : ResultError
  deriving DecidableEq

inductive RequestError where
  | malformed (error : CardOperationError)
  | refused (refusal : OperationRequestRefusal)
  deriving DecidableEq

namespace OperationRequest

variable (request : OperationRequest)

def wireBody : Body :=
  let (action, context, payload) := request.operation.wireParts
  ofList
    [("operation_id", .bytes request.operationId.val), ("profile", .text request.profile.asStr),
      ("action", .text action), ("expires_after_ms", .unsigned request.expiresAfterMs),
      ("context", .map context), ("payload", .map payload)]

def ensureRequestFitsOneFrame : Except CardOperationError Unit :=
  ensureFitsOneFrame .packageTooLarge .operationRequest request.wireBody

def validate (request : OperationRequest) : Except CardOperationError Unit :=
  if request.expiresAfterMs = 0 then .error .invalidLifetime
  else if request.profile ≠ request.operation.requiredProfile then .error .profileActionMismatch
  else do
    request.operation.validate
    match request.operation with
    | .signDocument _ (some _) _ _ _ => request.ensureRequestFitsOneFrame
    | _ => .ok ()

def reconstruct (operationId : OperationId) (profile : ProfileName)
    (localStartMs expiresAfterMs : UInt64) (operation : CardOperation) :
    Except CardOperationError OperationRequest := do
  let request : OperationRequest := ⟨operationId, profile, localStartMs, expiresAfterMs, operation⟩
  request.validate
  .ok request

/-- The deadline on the local clock under an endpoint's own maximum. -/
def localDeadlineMs (maximumLifetimeMs : UInt64) : Except CardOperationError UInt64 := do
  request.validate
  if maximumLifetimeMs = 0 then .error .invalidLifetime
  else .ok (saturatingAdd request.localStartMs (min request.expiresAfterMs maximumLifetimeMs))

/-- The deadline is no later than the start and the shorter lifetime. -/
theorem localDeadlineMs_le {request : OperationRequest} {maximumLifetimeMs deadline : UInt64}
    (h : request.localDeadlineMs maximumLifetimeMs = .ok deadline) :
    deadline.toNat ≤ request.localStartMs.toNat +
      min request.expiresAfterMs.toNat maximumLifetimeMs.toNat := by
  obtain ⟨-, -, h⟩ := bind_eq_ok.mp h
  split_ifs at h
  cases h
  have hMin : (min request.expiresAfterMs maximumLifetimeMs).toNat =
      min request.expiresAfterMs.toNat maximumLifetimeMs.toNat := by
    rw [Nat.min_def]
    exact apply_ite UInt64.toNat (request.expiresAfterMs ≤ maximumLifetimeMs) _ _
  rw [← hMin]
  exact saturatingAdd_le _ _

def toWireBody : Except CardOperationError Body := do
  request.validate
  .ok request.wireBody

/-- The schema of a request body: its identifier, profile name, action,
context, payload and lifetime. -/
def takeBody : Fields String WireValue CardOperationError
    (OperationId × String × String × Body × Body × UInt64) := do
  let idBytes ← takeCard asBytes? "operation_id"
  match reconstructIdentifier operationIdSize idBytes with
  | .error _ => throw .invalidIdentifier
  | .ok operationId => do
      let profileText ← takeCard asText? "profile"
      let action ← takeCard asText? "action"
      let context ← takeCard asMap? "context"
      let payload ← takeCard asMap? "payload"
      let lifetime ←
        takeOptional (.invalidField "expires_after_ms") asUnsigned? "expires_after_ms"
      requireEmpty .unexpectedField
      pure (operationId, profileText, action, context, payload,
        lifetime.getD defaultOperationLifetimeMs)

/-- Schema violations are malformed; anything later is refused under the
identifier the body names. -/
def fromWireBody (body : Body) (localStartMs : UInt64) : Except RequestError OperationRequest :=
  match takeBody body with
  | .error error => .error (.malformed error)
  | .ok ((operationId, profileText, action, context, payload, expiresAfterMs), _) =>
    if expiresAfterMs = 0 then .error (.refused ⟨operationId, .invalidLifetime⟩)
    else
      match ProfileName.parse profileText with
      | none => .error (.refused ⟨operationId, .unsupportedParameter⟩)
      | some profile =>
        match CardOperation.fromWireParts action context payload >>=
            reconstruct operationId profile localStartMs expiresAfterMs with
        | .ok request => .ok request
        | .error _ => .error (.refused ⟨operationId, .unsupportedParameter⟩)

end OperationRequest

end RefineId.Rapp
