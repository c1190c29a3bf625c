import RefineId.Rapp.Message

/-! Every typed message through its registered body, the field table and the
deterministic encoding, and back. -/
namespace RefineId.Rapp

open Data CardOperation WireValue Envelope FixedBytes

variable {body : Body}

/-- The three checks of a body, one by one. -/
theorem validateBody_ok {messageType : MessageType}
    (hKnown : ∀ key, key ∉ (fieldSpecs messageType).map FieldSpec.name → body.get? key = none)
    (hFields : validateFields body (fieldSpecs messageType) = .ok ())
    (hTexts : validateDiscriminants messageType body = .ok ()) :
    validateBody messageType body = .ok () := by
  simp [validateBody, rejectUnknownFields_ok_iff.mpr hKnown, hFields, hTexts]

@[simp] theorem validateFields_cons {spec rest} :
    validateFields body (spec :: rest) = .ok () ↔ (match body.get? spec.name with
        | none => spec.optional = true
        | some value => spec.fieldType.admits value = true) ∧
      validateFields body rest = .ok () := by
  rw [validateFields]
  cases body.get? spec.name with
  | none => cases hOptional : spec.optional <;> simp
  | some value => cases hAdmits : spec.fieldType.admits value <;> simp [validateField, hAdmits]

@[simp] theorem validateFields_nil (body : Body) : validateFields body [] = .ok () := by
  rfl

section Profiles

instance : Std.Total profileLe :=
  ⟨fun left right => by cases left <;> cases right <;> decide⟩

instance : IsTrans ProfileName profileLe :=
  ⟨fun left middle right => by cases left <;> cases middle <;> cases right <;> decide⟩

variable (profiles : List ProfileName)

theorem sortProfiles_sortProfiles : sortProfiles (sortProfiles profiles) = sortProfiles profiles :=
  (List.pairwise_insertionSort profileLe profiles).insertionSort_eq

/-- A set is judged by its members, in whatever order they come. -/
theorem validateProfileSet_sortProfiles :
    validateProfileSet (sortProfiles profiles) = validateProfileSet profiles := by
  have hNames : ∀ names : List ProfileName,
      (names.map fun profile => asBytes profile.asStr).insertionSort (· ≤ ·) =
        (sortProfiles names).map fun profile => asBytes profile.asStr := fun names =>
    (List.map_insertionSort profileLe (· ≤ ·) _ names fun _ _ _ _ => Iff.rfl).symm
  have hEmpty : (sortProfiles profiles).isEmpty = profiles.isEmpty := by
    rw [Bool.eq_iff_iff, List.isEmpty_iff_length_eq_zero, List.isEmpty_iff_length_eq_zero,
      sortProfiles, List.length_insertionSort]
  rw [validateProfileSet, validateProfileSet, hNames, hNames, sortProfiles_sortProfiles, hEmpty]

theorem selectAll_profiles : selectAll (MessageError.invalidField "profiles") asProfile?
      (profiles.map fun profile => .text profile.asStr) = .ok profiles :=
  selectAll_map fun profile _ => by simp [asProfile?]

/-- A valid set comes back in registry order. -/
theorem profilesFromArray_sorted {profiles} (h : validateProfileSet profiles = .ok ()) :
    profilesFromArray ((sortProfiles profiles).map fun profile => .text profile.asStr) =
      .ok (sortProfiles profiles) := by
  simp [profilesFromArray, selectAll_profiles, validateProfileSet_sortProfiles, h,
    sortProfiles_sortProfiles]

end Profiles

variable {result : OperationResultMessage} {request : OperationRequest}

theorem TypedMessage.toWireBody_request (h : (operationRequest request).toWireBody = .ok body) :
    request.validate = .ok () ∧ body = request.wireBody := by
  simp only [toWireBody] at h
  split at h
  · rename_i hBody
    cases h
    obtain ⟨⟨⟩, hValid, hBody⟩ := bind_eq_ok.mp hBody
    cases hBody
    exact ⟨hValid, rfl⟩
  · cases h

theorem TypedMessage.toWireBody_result (h : (operationResult result).toWireBody = .ok body) :
    result.isConsistent = true ∧ body = result.wireBody := by
  simp only [toWireBody, OperationResultMessage.toWireBody] at h
  cases hConsistent : result.isConsistent with
  | false =>
    rw [hConsistent] at h
    cases h
  | true =>
    rw [hConsistent] at h
    cases h
    exact ⟨rfl, rfl⟩

variable {message : TypedMessage}

section Valid

attribute [local simp] BTreeMap.ofList BTreeMap.insertAll BTreeMap.get?_insert fieldSpecs
  FieldType.admits validateDiscriminants bodyText operationIdField pairIdField
  certificateFingerprintField operationIdSize pairIdSize certificateFingerprintSize
  livenessChallengeSize sessionReadyNonceSize TypedMessage.messageType

theorem pairingHelloToBody_valid {value}
    (h : pairingHelloToBody value = .ok body) : validateBody .pairingHello body = .ok () := by
  obtain ⟨⟨⟩, -, h⟩ := bind_eq_ok.mp h
  obtain ⟨⟨⟩, -, h⟩ := bind_eq_ok.mp h
  obtain ⟨⟨⟩, -, h⟩ := bind_eq_ok.mp h
  split at h
  · cases h
    apply validateBody_ok <;> simp +contextual
  · obtain ⟨⟨⟩, -, h⟩ := bind_eq_ok.mp h
    cases h
    apply validateBody_ok <;> simp +contextual [profileArray]

theorem closeReasonName_registered (reason : CloseReason) :
    closeReasonName reason ∈ closeReasonNames := by
  cases reason <;> decide

theorem error_texts_bounded (value : ProtocolErrorMessage) :
    (1 ≤ byteLen value.error.asStr ∧ byteLen value.error.asStr ≤ 64) ∧
      1 ≤ byteLen value.message ∧ byteLen value.message ≤ 512 := by
  have hNamed : ∀ cause : ResultError, (1 ≤ byteLen cause.asStr ∧ byteLen cause.asStr ≤ 64) ∧
        1 ≤ byteLen (ProtocolErrorMessage.mk cause none).message ∧
        byteLen (ProtocolErrorMessage.mk cause none).message ≤ 512 := by
    intro cause
    cases cause <;> decide
  exact hNamed value.error

theorem status_registered (status : ResultStatus) : status.asStr ∈ resultStatusNames := by
  cases status <;> decide

theorem operationRequest_valid (request : OperationRequest) :
    validateBody .operationRequest request.wireBody = .ok () := by
  apply validateBody_ok <;> simp +contextual [OperationRequest.wireBody]

theorem operationResult_valid (result : OperationResultMessage) :
    validateBody .operationResult result.wireBody = .ok () := by
  cases hError : result.error <;> cases hResponse : result.response <;> apply validateBody_ok <;>
    simp +contextual [OperationResultMessage.wireBody, hError, hResponse, status_registered]

/-- Every body a message gives passes the field table. -/
theorem TypedMessage.toWireBody_valid (h : message.toWireBody = .ok body) :
    validateBody message.messageType body = .ok () := by
  cases message with
  | pairingHello value => exact pairingHelloToBody_valid h
  | pairingConfirm value =>
    obtain ⟨⟨⟩, -, h⟩ := bind_eq_ok.mp h
    cases h
    apply validateBody_ok <;> simp +contextual [profileArray]
  | pairingAbort value =>
    obtain ⟨⟨⟩, -, h⟩ := bind_eq_ok.mp h
    cases h
    apply validateBody_ok <;> simp +contextual
  | pairingStored value =>
    cases h
    apply validateBody_ok <;> simp +contextual [pairingStoredToBody]
  | sessionReady value =>
    obtain ⟨⟨⟩, -, h⟩ := bind_eq_ok.mp h
    obtain ⟨⟨⟩, -, h⟩ := bind_eq_ok.mp h
    cases h
    apply validateBody_ok <;> simp +contextual
  | sessionHello value =>
    cases h
    apply validateBody_ok <;> simp +contextual [sessionHelloToBody]
  | sessionClose value =>
    cases h
    apply validateBody_ok <;> simp +contextual [sessionCloseToBody, closeReasonName_registered]
  | livenessPing value | livenessPong value =>
    cases h
    apply validateBody_ok <;> simp +contextual [livenessToBody]
  | operationRequest request =>
    rw [(toWireBody_request h).2]
    exact operationRequest_valid request
  | operationRequestRefused refusal => cases h
  | operationResult result =>
    rw [(toWireBody_result h).2]
    exact operationResult_valid result
  | operationProgress value =>
    cases h
    apply validateBody_ok <;> simp +contextual [OperationProgressMessage.toWireBody]
  | cardStatus value =>
    cases h
    obtain ⟨card, -⟩ := value
    cases card <;> apply validateBody_ok <;> simp +contextual [cardStatusToBody]
  | error value =>
    cases h
    have hTexts := error_texts_bounded value
    cases hId : value.operationId <;> apply validateBody_ok <;>
      simp +contextual [errorToBody, hId, hTexts]

end Valid

/-- The message a reader gets: profile lists in registry order, and a request
with the time of its arrival. -/
def TypedMessage.received (nowMs : UInt64) : TypedMessage → TypedMessage
  | .pairingHello value =>
    .pairingHello { value with requestedProfiles := value.requestedProfiles.map sortProfiles }
  | .pairingConfirm value => .pairingConfirm ⟨sortProfiles value.grantedProfiles⟩
  | .operationRequest request => .operationRequest { request with localStartMs := nowMs }
  | message => message

section Read

attribute [local simp] BTreeMap.ofList BTreeMap.insertAll BTreeMap.get?_insert readBody takeBody
  takeFixed takeField takeOptional takeCard requireNoFields takeDisplayName WireValue.asText?
  WireValue.asBytes? WireValue.asArray? WireValue.asMap? WireValue.asBool? WireValue.asUnsigned?
  WireValue.asFixed?

theorem readVersion : asVersion? versionValue = some () := by
  decide

theorem pairingHello_read {value} (h : pairingHelloToBody value = .ok body) :
    readBody takePairingHello body =
      .ok { value with requestedProfiles := value.requestedProfiles.map sortProfiles } := by
  obtain ⟨⟨⟩, hPlatform, h⟩ := bind_eq_ok.mp h
  obtain ⟨⟨⟩, hTransport, h⟩ := bind_eq_ok.mp h
  obtain ⟨⟨⟩, hCandidate, h⟩ := bind_eq_ok.mp h
  have hParameters : negotiatedParametersFromMap (negotiatedParametersToMap value.parameters) =
      .ok value.parameters := by
    simp [negotiatedParametersFromMap, takeNegotiatedParameters, negotiatedParametersToMap,
      requireVersion, requirePairingSuite, readVersion, asPairingSuite?, hTransport, hCandidate]
  obtain ⟨parameters, displayName, platform, requestedProfiles⟩ := value
  cases requestedProfiles with
  | none =>
    cases h
    simp [takePairingHello, hParameters, hPlatform]
  | some profiles =>
    obtain ⟨⟨⟩, hProfiles, h⟩ := bind_eq_ok.mp h
    cases h
    simp [takePairingHello, hParameters, hPlatform, profileArray,
      profilesFromArray_sorted hProfiles]

variable (wrong : CardOperationError)

theorem selectAll_text (names : List String) :
    selectAll wrong asText? (names.map .text) = .ok names :=
  selectAll_map fun _ _ => rfl

theorem selectAll_bytes (values : List Bytes) :
    selectAll wrong asBytes? (values.map .bytes) = .ok values :=
  selectAll_map fun _ _ => rfl

/-- The parts of an operation name it and leave nothing over. -/
theorem takeParts_wireParts (operation : CardOperation) :
    takeParts operation.wireParts.1 operation.wireParts.2.1
      operation.wireParts.2.2 = .ok (operation, .empty, .empty) := by
  cases operation with
  | inspectCard | readIdentity => rfl
  | readCertificate kind => simp [takeParts, wireParts]
  | browserAuthenticate origin keyProfile algorithm digest =>
    simp [takeParts, wireParts, takeScheme]
  | signDocument documentName containedFiles keyProfile algorithm digest =>
    cases containedFiles <;>
      simp [takeParts, wireParts, takeScheme, takeOptionalTextArray, CardOperation.takeTextArray,
        BTreeMap.contains_eq_isSome, selectAll_text]
  | batchSignDocuments documentNames keyProfile algorithm digests =>
    simp [takeParts, wireParts, takeScheme,
      CardOperation.takeTextArray, selectAll_text, selectAll_bytes]

/-- A valid request is read back with the reader's own start time. -/
theorem operationRequest_read (h : request.validate = .ok ()) (nowMs : UInt64) :
    OperationRequest.fromWireBody request.wireBody nowMs =
      .ok { request with localStartMs := nowMs } := by
  have hNow : { request with localStartMs := nowMs }.validate = .ok () := h
  rw [OperationRequest.validate] at h
  split at h
  · cases h
  rename_i hLifetime
  split_ifs at h
  obtain ⟨⟨⟩, hOperation, -⟩ := bind_eq_ok.mp h
  have hParts : CardOperation.fromWireParts request.operation.wireParts.1
      request.operation.wireParts.2.1 request.operation.wireParts.2.2 = .ok request.operation := by
    simp [CardOperation.fromWireParts, takeParts_wireParts, hOperation]
  simp [OperationRequest.fromWireBody, OperationRequest.takeBody, OperationRequest.wireBody,
    hLifetime, hParts, OperationRequest.reconstruct, hNow]

/-- Reading an envelope with the body of a message gives the message, unless
it names a present card by zeros. -/
theorem TypedMessage.fromEnvelope_toWireBody (h : message.toWireBody = .ok body)
    (hCard : ∀ reader, message ≠ .cardStatus ⟨.present zeroFingerprint, reader⟩)
    (sessionId : SessionId) (sequence nowMs : UInt64) :
    fromEnvelope ⟨message.messageType, sessionId, sequence, body⟩ nowMs =
      .ok (message.received nowMs) := by
  cases message <;> simp only [fromEnvelope, messageType, received]
  case pairingHello value =>
    rw [pairingHello_read h]
    rfl
  case pairingConfirm value =>
    obtain ⟨⟨⟩, hProfiles, h⟩ := bind_eq_ok.mp h
    cases h
    simp [takePairingConfirm, profileArray, profilesFromArray_sorted hProfiles]
  case pairingAbort value =>
    obtain ⟨⟨⟩, hReason, h⟩ := bind_eq_ok.mp h
    cases h
    simp [takePairingAbort, hReason]
  case pairingStored value =>
    cases h
    simp [takePairingStored, pairingStoredToBody]
  case sessionReady value =>
    obtain ⟨⟨⟩, hTransport, h⟩ := bind_eq_ok.mp h
    obtain ⟨⟨⟩, hCandidate, h⟩ := bind_eq_ok.mp h
    cases h
    simp [takeSessionReady, takeSessionParameters, requireVersion, readVersion, hTransport,
      hCandidate]
  case sessionHello value =>
    cases h
    simp [takeSessionHello, sessionHelloToBody]
  case sessionClose value =>
    cases h
    simp [takeSessionClose, sessionCloseToBody]
  case livenessPing value | livenessPong value =>
    cases h
    simp [takeLiveness, livenessToBody]
  case operationRequest request =>
    obtain ⟨hValid, rfl⟩ := toWireBody_request h
    simp [operationRequest_read hValid]
  case operationRequestRefused refusal => cases h
  case operationResult result =>
    obtain ⟨hConsistent, rfl⟩ := toWireBody_result h
    obtain ⟨operationId, status, cause, response⟩ := result
    cases cause <;> cases response <;>
      simp [OperationResultMessage.fromWireBody, OperationResultMessage.takeMessage,
        OperationResultMessage.wireBody, hConsistent]
  case operationProgress value =>
    cases h
    simp [OperationProgressMessage.fromWireBody, OperationProgressMessage.takeMessage,
      OperationProgressMessage.toWireBody]
  case cardStatus value =>
    cases h
    obtain ⟨card, reader⟩ := value
    cases card with
    | absent => cases reader <;> simp [takeCardStatus, cardStatusToBody]
    | present fingerprint =>
      -- zeros are the mark of an absent card, so they name no present one
      have hNonzero : fingerprint ≠ zeroFingerprint := fun hZero => hCard reader (by rw [hZero])
      cases reader <;> simp [takeCardStatus, cardStatusToBody, hNonzero]
  case error value =>
    cases h
    obtain ⟨-, operationId⟩ := value
    cases operationId <;> simp [takeError, errorToBody]

end Read

namespace TypedMessage

/-- A message that encodes in one frame is read back as sent, up to the order
of its profiles and the start time of a request. A present card with the
zero fingerprint is the one exception. -/
theorem round_trip {message : TypedMessage} {sessionId : SessionId} {sequence : UInt64}
    {body : Body} {bytes : Bytes} (hBody : message.toWireBody = .ok body)
    (hBytes : encode ⟨message.messageType, sessionId, sequence, body⟩ = .ok bytes)
    (hCard : ∀ reader, message ≠ cardStatus ⟨.present zeroFingerprint, reader⟩) (nowMs : UInt64) :
    ∃ envelope, decode bytes = .ok envelope ∧
      fromEnvelope envelope nowMs = .ok (message.received nowMs) :=
  ⟨_, Envelope.decode_of_encode (toWireBody_valid hBody) hBytes,
    fromEnvelope_toWireBody hBody hCard sessionId sequence nowMs⟩

/-- Two granted profiles, named in another order than the registry's. -/
def confirmMessage : TypedMessage :=
  pairingConfirm ⟨[.documentSigning, .authentication]⟩

/-- They come back in registry order. -/
theorem confirmMessage_round_trip : ∃ body bytes envelope, confirmMessage.toWireBody = .ok body ∧
      encode ⟨.pairingConfirm, replicate _ 1, 9, body⟩ = .ok bytes ∧
      decode bytes = .ok envelope ∧
      fromEnvelope envelope 0 = .ok (pairingConfirm ⟨[.authentication, .documentSigning]⟩) := by
  have hEncodes : (confirmMessage.toWireBody.toOption.map fun body =>
      (encode ⟨.pairingConfirm, replicate _ 1, 9, body⟩).isOk) = some true := by
    decide +kernel
  obtain ⟨body, hBody, hOk⟩ := Option.map_eq_some_iff.mp hEncodes
  rw [toOption_eq_some] at hBody
  obtain ⟨bytes, hBytes⟩ := exists_of_isOk hOk
  obtain ⟨envelope, hDecode, hRead⟩ := round_trip hBody hBytes (fun _ h => by cases h) 0
  exact ⟨body, bytes, envelope, hBody, hBytes, hDecode, hRead⟩

/-- A present card with the zero fingerprint encodes and is refused by its
reader. -/
theorem zeroFingerprint_refused : ∃ body bytes envelope,
      (cardStatus ⟨.present zeroFingerprint, .attached⟩).toWireBody = .ok body ∧
      encode ⟨.cardStatus, replicate _ 1, 9, body⟩ = .ok bytes ∧
      decode bytes = .ok envelope ∧
      fromEnvelope envelope 0 = .error (.invalidField "certificate_fingerprint") := by
  let message := cardStatus ⟨.present zeroFingerprint, .attached⟩
  have hBody : message.toWireBody = .ok (cardStatusToBody ⟨.present zeroFingerprint, .attached⟩) :=
    rfl
  have hEncodes : (encode ⟨.cardStatus, replicate _ 1, 9,
      cardStatusToBody ⟨.present zeroFingerprint, .attached⟩⟩).isOk = true := by
    decide +kernel
  obtain ⟨bytes, hBytes⟩ := exists_of_isOk hEncodes
  exact ⟨_, bytes, _, hBody, hBytes, Envelope.decode_of_encode (toWireBody_valid hBody) hBytes, rfl⟩

end TypedMessage

end RefineId.Rapp
