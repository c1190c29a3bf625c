import RefineId.Rapp.Endpoint
import RefineId.Rapp.MessageRoundTrip
import RefineId.Rapp.Wire.Size

/-! Which requests and which batch results travel in one frame
(`crates/rapp/src/operation.rs`, `operation_bridge.rs`). -/
namespace RefineId.Rapp

open Data Envelope List BTreeMap
open CardOperation MessageType OperationResultMessage SequenceGuard

variable {keyProfile : CardKeyProfile} {algorithm : SignatureAlgorithm} {digest : Bytes}

theorem validateNamedDigest_ok {displayName}
    (h : validateNamedDigest displayName keyProfile algorithm digest = .ok ()) :
    byteLen displayName ≤ 256 ∧ digest.length = algorithm.digestSize := by
  rw [validateNamedDigest] at h
  split at h
  · cases h
  rename_i hName
  split_ifs at h with hDigest
  simp only [displayNameBytes, Bool.or_eq_true, Bool.not_eq_true', not_or, Bool.not_eq_false,
    Bool.and_eq_true, decide_eq_true_eq] at hName
  exact ⟨hName.2.2, not_not.mp hDigest⟩

theorem validateBatch_ok_iff {documents} :
    validateBatch keyProfile algorithm documents = .ok () ↔ ∀ document ∈ documents,
        validateNamedDigest document.1 keyProfile algorithm document.2 = .ok () := by
  induction documents with
  | nil => simp [validateBatch]
  | cons document rest ih =>
    rw [validateBatch, bind_eq_ok, forall_mem_cons, ← ih]
    constructor
    · rintro ⟨⟨⟩, hHead, hRest⟩
      exact ⟨hHead, hRest⟩
    · rintro ⟨hHead, hRest⟩
      exact ⟨(), hHead, hRest⟩

theorem checkContainedFiles_ok {before names}
    (h : checkContainedFiles before names = .ok ()) : ∀ name ∈ names, byteLen name ≤ 256 := by
  induction names generalizing before with
  | nil => simp
  | cons name rest ih =>
    rw [checkContainedFiles] at h
    split at h
    · cases h
    rename_i hName
    split_ifs at h
    simp only [displayNameBytes, Bool.or_eq_true, Bool.not_eq_true', not_or,
      Bool.not_eq_false, Bool.and_eq_true, decide_eq_true_eq] at hName
    exact forall_mem_cons.mpr ⟨hName.1.2, ih h⟩

variable {operation : CardOperation}

namespace CardOperation

/-- Bytes of the scheme fields of a signing payload, their names included. -/
def schemeSize (keyProfile : CardKeyProfile) (algorithm : SignatureAlgorithm) : Nat :=
  22 + stringSize (byteLen keyProfile.wireName) + stringSize (byteLen algorithm.wireName)

def contextSize : CardOperation → Nat
  | inspectCard | readIdentity | readCertificate _ => 1
  | browserAuthenticate origin _ _ _ => 8 + stringSize (byteLen origin)
  | signDocument documentName none _ _ _ => 15 + stringSize (byteLen documentName)
  | signDocument documentName (some files) _ _ _ =>
    31 + stringSize (byteLen documentName) + stringsSize (files.names.map byteLen)
  | batchSignDocuments documentNames _ _ _ => 16 + stringsSize (documentNames.map byteLen)

def payloadSize : CardOperation → Nat
  | inspectCard | readIdentity => 1
  | readCertificate kind => 6 + stringSize (byteLen kind.wireName)
  | browserAuthenticate _ keyProfile algorithm digest
  | signDocument _ _ keyProfile algorithm digest =>
    8 + schemeSize keyProfile algorithm + stringSize digest.length
  | batchSignDocuments _ keyProfile algorithm digests =>
    9 + schemeSize keyProfile algorithm + stringsSize (digests.map length)

/-- Names that are shown, and so travel, are bounded far below the text
limit of the wire. -/
def NamesBounded : CardOperation → Prop
  | browserAuthenticate origin _ _ _ => byteLen origin ≤ 256
  | signDocument documentName _ _ _ _ => byteLen documentName ≤ 256
  | batchSignDocuments documentNames _ _ _ => ∀ name ∈ documentNames, byteLen name ≤ 256
  | _ => True

theorem namesBounded_of_validate (h : operation.validate = .ok ()) : operation.NamesBounded := by
  cases operation with
  | inspectCard | readIdentity | readCertificate => trivial
  | browserAuthenticate | signDocument => exact (validateNamedDigest_ok h).1
  | batchSignDocuments documentNames keyProfile algorithm digests =>
    rw [validate] at h
    split_ifs at h with hLengths
    obtain ⟨_, hBatch, -⟩ := bind_eq_ok.mp h
    have hLength : documentNames.length = digests.length := by
      simp only [Bool.or_eq_true, decide_eq_true_eq, not_or, not_not] at hLengths
      exact hLengths.2
    intro name hMem
    rw [← map_fst_zip hLength.le] at hMem
    obtain ⟨document, hDocument, rfl⟩ := mem_map.mp hMem
    exact (validateNamedDigest_ok (validateBatch_ok_iff.mp hBatch document hDocument)).1

theorem action_name_short (operation : CardOperation) : byteLen operation.wireParts.1 ≤ 23 := by
  cases operation <;> simp only [wireParts] <;> decide

theorem sized_payload {key length size value}
    (hKeys : ["key_profile", "algorithm", key].Nodup) (hKey : byteLen key = length ∧ length ≤ 23)
    (h : Sized 3 value size) :
    Sized 2 (.map (ofList [("key_profile", .text keyProfile.wireName),
      ("algorithm", .text algorithm.wireName), (key, value)]))
      (length + 2 + schemeSize keyProfile algorithm + size) := by
  refine sized_record (by decide) (by exact hKeys) (by simp)
    (.cons (.field "key_profile" 11 (by decide)
        (sized_text (by decide) (by cases keyProfile <;> decide)))
      (.cons (.field "algorithm" 9 (by decide)
          (sized_text (by decide) (by cases algorithm <;> decide)))
        (.cons (.field key length hKey h) .nil))) ?_
  simp only [sum_cons, sum_nil, schemeSize]
  omega

theorem sized_single {key length size value}
    (hKey : byteLen key = length ∧ length ≤ 23) (h : Sized 3 value size) :
    Sized 2 (.map (ofList [(key, value)])) (length + 2 + size) := by
  refine sized_record (by decide) (by simp) (by simp) (.cons (.field key length hKey h) .nil) ?_
  simp only [sum_cons, sum_nil]
  omega

theorem sized_none : Sized 2 (.map empty) 1 := by
  have hMap : Sized 2 (.map (ofList [])) _ := sized_map (by decide) nodup_nil .nil
  exact hMap

/-- The size of an operation's context and payload on the wire. -/
theorem sized_wireParts (h : operation.NamesBounded) :
    Sized 2 (.map operation.wireParts.2.1) operation.contextSize ∧
      Sized 2 (.map operation.wireParts.2.2) operation.payloadSize := by
  have hText : ∀ {text : String}, byteLen text ≤ 256 →
      Sized 3 (.text text) (stringSize (byteLen text)) :=
    fun hLength => sized_text (by decide) (hLength.trans (by decide))
  cases operation with
  | inspectCard | readIdentity => exact ⟨sized_none, sized_none⟩
  | readCertificate kind =>
    have hKind : byteLen kind.wireName ≤ maxTextSize := by cases kind <;> decide
    exact ⟨sized_none, sized_single (by decide) (sized_text (by decide) hKind)⟩
  | browserAuthenticate origin keyProfile algorithm digest =>
    exact ⟨sized_single (by decide) (hText h),
      sized_payload (by decide) (by decide) (sized_bytes (by decide) digest)⟩
  | signDocument documentName containedFiles keyProfile algorithm digest =>
    refine ⟨?_, sized_payload (by decide) (by decide) (sized_bytes (by decide) digest)⟩
    cases containedFiles with
    | none => exact sized_single (by decide) (hText h)
    | some files =>
      have hFiles : ∀ name ∈ files.names, byteLen name ≤ maxTextSize :=
        fun name hMem => (checkContainedFiles_ok files.checked name hMem).trans (by decide)
      refine sized_record (by decide) (by simp) (by simp)
        (.cons (.field "document_name" 13 (by decide) (hText h))
          (.cons (.field "contained_files" 15 (by decide)
            (sized_texts (by decide) hFiles)) .nil)) ?_
      simp only [sum_cons, sum_nil, contextSize]
      omega
  | batchSignDocuments documentNames keyProfile algorithm digests =>
    have hNames : ∀ name ∈ documentNames, byteLen name ≤ maxTextSize :=
      fun name hMem => (h name hMem).trans (by decide)
    exact ⟨sized_single (by decide) (sized_texts (by decide) hNames),
      sized_payload (by decide) (by decide) (sized_byteStrings (by decide) digests)⟩

end CardOperation

variable {request : OperationRequest}

namespace OperationRequest

def bodySize (request : OperationRequest) : Nat :=
  79 + stringSize (byteLen request.profile.asStr) +
    stringSize (byteLen request.operation.wireParts.1) + argumentSize request.expiresAfterMs +
    request.operation.contextSize + request.operation.payloadSize

/-- Bytes of the envelope of a request at the widest sequence. -/
def frameSize (request : OperationRequest) : Nat :=
  Envelope.sizeAround .operationRequest (UInt64.ofNat (2 ^ 64 - 1)) request.bodySize

theorem sized_wireBody (h : request.operation.NamesBounded) :
    Sized 1 (.map request.wireBody) request.bodySize := by
  obtain ⟨hContext, hPayload⟩ := sized_wireParts h
  have hProfile : byteLen request.profile.asStr ≤ maxTextSize := by
    cases request.profile <;> decide
  have hAction : byteLen request.operation.wireParts.1 ≤ maxTextSize :=
    request.operation.action_name_short.trans (by decide)
  have hId : stringSize request.operationId.val.length = 17 := by
    rw [FixedBytes.length_val]
    decide
  refine sized_record (by decide) (by simp) (by simp)
    (.cons (.field "operation_id" 12 (by decide) (sized_bytes (by decide) request.operationId.val))
      (.cons (.field "profile" 7 (by decide) (sized_text (by decide) hProfile))
        (.cons (.field "action" 6 (by decide) (sized_text (by decide) hAction))
          (.cons (.field "expires_after_ms" 16 (by decide)
              (sized_unsigned (by decide) request.expiresAfterMs))
            (.cons (.field "context" 7 (by decide) hContext)
              (.cons (.field "payload" 7 (by decide) hPayload) .nil)))))) ?_
  simp only [sum_cons, sum_nil, hId, bodySize]
  omega

end OperationRequest

variable {messageType : MessageType} {body : Body}

/-- The check of one frame measures the envelope at the widest sequence. -/
theorem ensureFitsOneFrame_ok_iff {tooLarge bodySize}
    (hValid : validateBody messageType body = .ok ()) (h : Sized 1 (.map body) bodySize) :
    ensureFitsOneFrame tooLarge messageType body = .ok () ↔
      sizeAround messageType (UInt64.ofNat (2 ^ 64 - 1)) bodySize ≤ maxFramePlaintext := by
  have hReconstruct : Envelope.reconstruct messageType (FixedBytes.replicate sessionIdSize 0)
      (UInt64.ofNat (2 ^ 64 - 1)) body =
        .ok ⟨messageType, FixedBytes.replicate sessionIdSize 0, UInt64.ofNat (2 ^ 64 - 1), body⟩ := by
    rw [Envelope.reconstruct, hValid]
    rfl
  have hEnvelope := sized_toMap messageType (FixedBytes.replicate sessionIdSize 0)
    (UInt64.ofNat (2 ^ 64 - 1)) h
  rw [ensureFitsOneFrame, hReconstruct]
  rcases encode_sized hEnvelope with ⟨hSize, bytes, hEncode, -⟩ | ⟨hOver, hError⟩
  · simp only [hEncode, true_iff]
    exact hSize
  · simp only [hError, reduceCtorEq, false_iff, not_le]
    exact hOver

namespace OperationResultMessage

def batchBodySize (lengths : List Nat) : Nat :=
  69 + stringsSize lengths

theorem sized_completedBatch (operationId : OperationId) (signatures : List Bytes) :
    Sized 1 (.map (completed operationId (.signatures signatures)).wireBody)
      (batchBodySize (signatures.map length)) := by
  have hResponse : Sized 2 (.map (resultToWire (.signatures signatures)))
      (12 + stringsSize (signatures.map length)) :=
    sized_single (by decide) (sized_byteStrings (by decide) signatures)
  have hId : stringSize operationId.val.length = 17 := by
    rw [FixedBytes.length_val]
    decide
  have hStatus : stringSize (byteLen ResultStatus.completed.asStr) = 10 := by decide
  change Sized 1 (.map (ofList [("operation_id", .bytes operationId.val),
    ("status", .text ResultStatus.completed.asStr), ("response", .map _)])) _
  refine sized_record (by decide) (by simp) (by simp)
    (.cons (.field "operation_id" 12 (by decide) (sized_bytes (by decide) operationId.val))
      (.cons (.field "status" 6 (by decide) (sized_text (by decide) (by decide)))
        (.cons (.field "response" 8 (by decide) hResponse) .nil))) ?_
  simp only [sum_cons, sum_nil, hId, hStatus, batchBodySize]
  omega

end OperationResultMessage

/-- The admission check of a batch measures signatures of the greatest length. -/
theorem ensureBatchResultFitsOneFrame_ok_iff {count} :
    ensureBatchResultFitsOneFrame count keyProfile = .ok () ↔
      sizeAround .operationResult (UInt64.ofNat (2 ^ 64 - 1))
        (batchBodySize (replicate count keyProfile.signatureSize)) ≤ maxFramePlaintext := by
  have hSized := sized_completedBatch (FixedBytes.replicate operationIdSize 0)
    (replicate count (replicate keyProfile.signatureSize 0))
  rw [map_replicate, length_replicate] at hSized
  rw [← ensureFitsOneFrame_ok_iff (operationResult_valid _) hSized]
  rfl

/-- An array of strings is no longer than one of as many longest strings. -/
theorem stringsSize_le_replicate {lengths bound} (hWord : bound < 2 ^ 64)
    (h : ∀ length ∈ lengths, length ≤ bound) :
    stringsSize lengths ≤ stringsSize (replicate lengths.length bound) := by
  have hSum : (lengths.map stringSize).sum ≤ lengths.length * stringSize bound := by
    induction lengths with
    | nil => simp
    | cons length rest ih =>
      have hHead := stringSize_mono hWord (h length mem_cons_self)
      have hTail := ih fun other hMem => h other (mem_cons_of_mem _ hMem)
      rw [map_cons, sum_cons, length_cons, Nat.succ_mul]
      omega
  rw [stringsSize, stringsSize, length_replicate, map_replicate, sum_replicate_nat]
  exact Nat.add_le_add_left hSum _

variable {documentNames : List String} {digests : List Bytes}

theorem validateFor_signatures {signatures} (operationId : OperationId)
    (hCount : signatures.length = digests.length)
    (hNonempty : ∀ signature ∈ signatures, signature ≠ []) :
    (OperationResultMessage.completed operationId (.signatures signatures)).validateFor operationId
      (.batchSignDocuments documentNames keyProfile algorithm digests) = .ok () := by
  have hSelect : selectAll (CardOperationError.invalidField "signatures")
      WireValue.asNonemptyBytes? (signatures.map .bytes) = .ok signatures := by
    refine selectAll_map fun signature hMem => ?_
    simp [WireValue.asNonemptyBytes?, hNonempty signature hMem]
  have hTyped : resultFromWire (resultToWire (.signatures signatures))
      (.batchSignDocuments documentNames keyProfile algorithm digests) =
        .ok (.signatures signatures) := by
    simp [resultFromWire, resultToWire, takeResult, takeByteArray, takeCard, takeField,
      ofList, insertAll, WireValue.asArray?, hSelect]
  simp [OperationResultMessage.validateFor, OperationResultMessage.completed,
    OperationResultMessage.isConsistent, ResultResponse.fromResult, ResultResponse.typedFor, hTyped,
    resultMatchesOperation, hCount]

variable {operationId : OperationId}

namespace OperationRequest

/-- Bytes of the envelope of a batch request at the widest sequence. -/
def batchFrameSize (expiresAfterMs : UInt64) (documentNames : List String)
    (keyProfile : CardKeyProfile) (algorithm : SignatureAlgorithm) (digests : List Bytes) : Nat :=
  265 + argumentSize expiresAfterMs + stringSize (byteLen keyProfile.wireName) +
    stringSize (byteLen algorithm.wireName) + stringsSize (documentNames.map byteLen) +
    stringsSize (digests.map length)

theorem frameSize_batch (hProfile : request.profile = request.operation.requiredProfile)
    (hOperation : request.operation =
      .batchSignDocuments documentNames keyProfile algorithm digests) :
    request.frameSize =
      batchFrameSize request.expiresAfterMs documentNames keyProfile algorithm digests := by
  have hType : stringSize (byteLen operationRequest.asStr) = 18 := by decide
  have hSequence : argumentSize (UInt64.ofNat (2 ^ 64 - 1)) = 9 := by decide
  have hName : stringSize (byteLen ProfileName.documentSigning.asStr) = 30 := by decide
  have hAction : stringSize (byteLen "batch_sign_documents") = 21 := by decide
  rw [hOperation, requiredProfile] at hProfile
  simp only [frameSize, sizeAround, bodySize, hProfile, hOperation,
    wireParts, contextSize, payloadSize,
    schemeSize, batchFrameSize, hType, hSequence, hName, hAction]
  omega

/-- One name of 256 bytes, one scheme and one digest of 64 bytes. -/
theorem namedSize_le {name} (h : validateNamedDigest name keyProfile algorithm digest = .ok ()) :
    stringSize (byteLen name) + schemeSize keyProfile algorithm + stringSize digest.length ≤ 400 := by
  obtain ⟨hName, hDigest⟩ := validateNamedDigest_ok h
  have hNameSize := stringSize_le (byteLen name)
  have hDigestSize := stringSize_le digest.length
  have hScheme : schemeSize keyProfile algorithm ≤ 50 := by
    cases keyProfile <;> cases algorithm <;> decide
  have hLength : algorithm.digestSize ≤ 64 := by cases algorithm <;> decide
  omega

/-- Everything but the names and digests leaves most of a frame. -/
theorem frameSize_of_parts
    (hParts : request.operation.contextSize + request.operation.payloadSize ≤ 500) :
    request.frameSize ≤ maxFramePlaintext := by
  have hType : stringSize (byteLen operationRequest.asStr) = 18 := by decide
  have hSequence := argumentSize_le (UInt64.ofNat (2 ^ 64 - 1))
  have hLifetime := argumentSize_le request.expiresAfterMs
  have hProfile : stringSize (byteLen request.profile.asStr) ≤ 30 := by
    cases request.profile <;> decide
  have hAction := request.operation.action_name_short
  have hActionSize := stringSize_le (byteLen request.operation.wireParts.1)
  simp only [frameSize, sizeAround, bodySize, hType, maxFramePlaintext]
  omega

theorem validate_ok (h : request.validate = .ok ()) :
    request.profile = request.operation.requiredProfile ∧ request.operation.validate = .ok () ∧
      ∀ name files keyProfile algorithm digest,
        request.operation = .signDocument name (some files) keyProfile algorithm digest →
          request.ensureRequestFitsOneFrame = .ok () := by
  rw [validate] at h
  split at h
  · cases h
  split_ifs at h with hProfile
  obtain ⟨⟨⟩, hOperation, h⟩ := bind_eq_ok.mp h
  refine ⟨not_not.mp hProfile, hOperation, ?_⟩
  intro name files keyProfile algorithm digest hPackage
  simpa only [hPackage] using h

theorem reconstruct_ok {profile localStartMs expiresAfterMs}
    (h : reconstruct operationId profile localStartMs expiresAfterMs operation = .ok request) :
    request = ⟨operationId, profile, localStartMs, expiresAfterMs, operation⟩ ∧
      request.validate = .ok () := by
  obtain ⟨⟨⟩, hValid, h⟩ := bind_eq_ok.mp h
  cases h
  exact ⟨rfl, hValid⟩

/-- A valid request fits one frame unless it is a batch; a batch is measured
by the result it will have, not by the request it is. -/
theorem frameSize_le_iff (h : request.validate = .ok ()) : request.frameSize ≤ maxFramePlaintext ↔
      ∀ documentNames keyProfile algorithm digests,
        request.operation = .batchSignDocuments documentNames keyProfile algorithm digests →
          batchFrameSize request.expiresAfterMs documentNames keyProfile algorithm digests ≤
            maxFramePlaintext := by
  obtain ⟨hProfile, hOperation, hPackage⟩ := validate_ok h
  constructor
  · intro hSize documentNames keyProfile algorithm digests hBatch
    rwa [frameSize_batch hProfile hBatch] at hSize
  intro hBatches
  cases hCase : request.operation with
  | inspectCard | readIdentity => exact frameSize_of_parts (by rw [hCase]; decide)
  | readCertificate kind => exact frameSize_of_parts (by rw [hCase]; cases kind <;> decide)
  | browserAuthenticate origin keyProfile algorithm digest =>
    rw [hCase] at hOperation
    have hNamed := namedSize_le hOperation
    refine frameSize_of_parts ?_
    simp only [hCase, contextSize, payloadSize]
    omega
  | signDocument documentName containedFiles keyProfile algorithm digest =>
    cases containedFiles with
    | none =>
      rw [hCase] at hOperation
      have hNamed := namedSize_le hOperation
      refine frameSize_of_parts ?_
      simp only [hCase, contextSize, payloadSize]
      omega
    | some files =>
      have hSized := sized_wireBody (namesBounded_of_validate hOperation)
      exact (ensureFitsOneFrame_ok_iff (operationRequest_valid request) hSized).mp
        (hPackage _ _ _ _ _ hCase)
  | batchSignDocuments =>
    rw [frameSize_batch hProfile hCase]
    exact hBatches _ _ _ _ hCase

end OperationRequest

variable {S : Type} {provider : Provider S}

/-- The encryption under a channel never reports a failure of the wire, so
such a failure is one of the envelope. -/
theorem SecureChannel.sealMessage_wire_error {channel : SecureChannel S} {error}
    (h : (channel.sealMessage provider messageType body).1 = .error (.wire error)) :
    channel.sequence.nextPlaintext messageType body = .error error := by
  cases hPlain : channel.sequence.nextPlaintext messageType body with
  | error other =>
    simp only [sealMessage, sealNext, hPlain] at h
    cases h
    rfl
  | ok plain =>
    obtain ⟨following, plaintext⟩ := plain
    have hWrite : ∀ transport : TransportMode S,
        (transport.write provider plaintext).1 ≠ .error (.wire error) := by
      intro transport
      cases transport with
      | snow state | native transport =>
        rw [TransportMode.write]
        split <;> simp
    simp only [sealMessage, sealNext, hPlain] at h
    have hTransport := hWrite channel.transport
    generalize channel.transport.write provider plaintext = written at h hTransport
    obtain ⟨outcome, transport⟩ := written
    cases outcome with
    | error other =>
      cases h
      exact absurd rfl hTransport
    | ok output =>
      cases hFrame : BinaryFrame.reconstruct output with
      | error other | ok frame => simp [hFrame] at h

inductive BeginError where
  | wrongPhase
  | invalidInput
  deriving DecidableEq

inductive BeginAction where
  | send (operationId : OperationId) (frame : BinaryFrame)
  | sessionClosed (ended : Option OperationId)

/-- The requester's side of the operation bridge while its session is open. -/
structure RequesterBridge (S : Type) where
  endpoint : EstablishedEndpoint S
  engine : RequesterOperationEngine
  grantedProfiles : List ProfileName

/-- Start an operation and seal its request. A request that cannot be sealed
closes the session; no bridge is left then. -/
def RequesterBridge.beginOperation {S : Type} (bridge : RequesterBridge S) (provider : Provider S)
    (operationId : Bytes) (localStartMs expiresAfterMs : UInt64) (operation : CardOperation) :
    Except BeginError BeginAction × Option (RequesterBridge S) :=
  match reconstructIdentifier operationIdSize operationId with
  | .error _ => (.error .invalidInput, some bridge)
  | .ok operationId =>
    if !bridge.grantedProfiles.contains operation.requiredProfile then
      (.error .invalidInput, some bridge)
    else
      match OperationRequest.reconstruct operationId operation.requiredProfile localStartMs
          expiresAfterMs operation with
      | .error _ => (.error .invalidInput, some bridge)
      | .ok request =>
        match bridge.engine.begin request with
        | (.error .liveOperation, engine) => (.error .wrongPhase, some { bridge with engine })
        | (.error _, engine) => (.error .invalidInput, some { bridge with engine })
        | (.ok message, engine) =>
          match bridge.endpoint.send provider message with
          | (.ok frame, endpoint) =>
            (.ok (.send operationId frame), some { bridge with endpoint, engine })
          | (.error _, _) => (.ok (.sessionClosed engine.sessionClosed.1), none)

/-- The bridge closes a session it begins an operation on only when its
endpoint does not send the request. -/
theorem RequesterBridge.beginOperation_closed {bridge : RequesterBridge S}
    {localStartMs expiresAfterMs ended} {after : Option (RequesterBridge S)}
    (h : bridge.beginOperation provider operationId.val localStartMs expiresAfterMs operation =
      (.ok (.sessionClosed ended), after))
    (hRequest : OperationRequest.reconstruct operationId operation.requiredProfile localStartMs
      expiresAfterMs operation = .ok request) :
    ∃ error, (bridge.endpoint.send provider (.operationRequest request)).1 = .error error := by
  simp only [beginOperation, reconstructIdentifier_val, hRequest] at h
  split at h
  · cases h
  split at h
  · cases h
  · cases h
  rename_i message engine hBegin
  have hMessage : message = .operationRequest request := by
    rw [RequesterOperationEngine.begin] at hBegin
    split at hBegin
    · cases hBegin
    split at hBegin
    · cases hBegin
    split at hBegin
    · cases hBegin
    · cases hBegin
      rfl
  subst hMessage
  split at h
  · cases h
  · rename_i error _ hSend
    exact ⟨error, by rw [hSend]⟩

variable {endpoint : EstablishedEndpoint S}

/-- A failure of the cryptographic layer comes from sealing the message on
the endpoint's channel. -/
theorem EstablishedEndpoint.send_crypto_error {message : TypedMessage} {error}
    (h : (endpoint.send provider message).1 = .error (.crypto error)) :
    ∃ channel body, message.toWireBody = .ok body ∧
      (SecureChannel.sealMessage channel provider message.messageType body).1 = .error error := by
  have hSeal : (endpoint.sealMessage provider message).1 = .error (.crypto error) := by
    rw [send] at h
    split at h
    · cases h
    split at h
    · cases h
    split at h
    · rename_i hSealed
      rw [hSealed]
      exact h
    · split at h <;> cases h
  rw [sealMessage] at hSeal
  cases hChannel : endpoint.channel with
  | none => simp [hChannel, sealTyped] at hSeal
  | some channel =>
    cases hBody : message.toWireBody with
    | error other => simp [hChannel, hBody, sealTyped] at hSeal
    | ok body =>
      refine ⟨channel, body, rfl, ?_⟩
      simp only [hChannel, hBody, sealTyped] at hSeal
      generalize channel.sealMessage provider message.messageType body = sealed at hSeal ⊢
      obtain ⟨outcome, channel⟩ := sealed
      cases outcome with
      | error other =>
        cases hSeal
        rfl
      | ok frame => cases hSeal

namespace OperationRequest

/-- The request encodes within one frame whatever its session and its place
in it. -/
def FitsEveryFrame (request : OperationRequest) : Prop :=
  ∀ sessionId sequence, ∃ bytes,
    (Envelope.reconstruct .operationRequest sessionId sequence request.wireBody >>=
      Envelope.encode) = .ok bytes ∧ bytes.length ≤ maxFramePlaintext

theorem fitsEveryFrame_iff (h : request.validate = .ok ()) :
    request.FitsEveryFrame ↔ request.frameSize ≤ maxFramePlaintext :=
  fits_iff (operationRequest_valid request)
    (sized_wireBody (namesBounded_of_validate (validate_ok h).2.1))

/-- An endpoint that cannot send a request that fits has another reason. -/
theorem send_not_oversized (hFits : request.FitsEveryFrame) (got : Nat) :
    (endpoint.send provider (.operationRequest request)).1 ≠
      .error (.crypto (.wire (.oversizedPlaintext got))) := by
  intro h
  obtain ⟨channel, body, hBody, hSeal⟩ := EstablishedEndpoint.send_crypto_error h
  obtain ⟨-, rfl⟩ := TypedMessage.toWireBody_request hBody
  have hPlain := SecureChannel.sealMessage_wire_error hSeal
  obtain ⟨bytes, hEncode, -⟩ := hFits channel.sequence.sessionId channel.sequence.nextSend
  obtain ⟨envelope, hEnvelope, hEncode⟩ := bind_eq_ok.mp hEncode
  rw [SequenceGuard.nextPlaintext] at hPlain
  split at hPlain
  · cases hPlain
  · simp [TypedMessage.messageType, hEnvelope, hEncode] at hPlain

/-- An accepted request can be sent, at every session and sequence and by
every bridge that begins it, exactly when it is no batch or the names and
digests of its batch leave room in one frame. -/
theorem accepted_request_fits_iff {operationId : OperationId} {profile : ProfileName}
    {localStartMs expiresAfterMs : UInt64} {operation : CardOperation} {request : OperationRequest}
    (h : reconstruct operationId profile localStartMs expiresAfterMs operation = .ok request) :
    (request.FitsEveryFrame ∧
      ∀ (S : Type) (provider : Provider S) (bridge : RequesterBridge S) ended after,
        bridge.beginOperation provider operationId.val localStartMs expiresAfterMs operation =
            (.ok (.sessionClosed ended), after) →
          ∃ error, (bridge.endpoint.send provider (.operationRequest request)).1 = .error error ∧
            ∀ got, error ≠ .crypto (.wire (.oversizedPlaintext got))) ↔
      ∀ documentNames keyProfile algorithm digests,
        operation = .batchSignDocuments documentNames keyProfile algorithm digests →
          batchFrameSize expiresAfterMs documentNames keyProfile algorithm digests ≤
            maxFramePlaintext := by
  obtain ⟨hRequest, hValid⟩ := reconstruct_ok h
  have hFits := (fitsEveryFrame_iff hValid).trans (frameSize_le_iff hValid)
  rw [hRequest] at hFits
  constructor
  · rintro ⟨hEvery, -⟩
    rw [hRequest] at hEvery
    exact hFits.mp hEvery
  intro hBatches
  have hEvery := hFits.mpr hBatches
  rw [← hRequest] at hEvery
  refine ⟨hEvery, ?_⟩
  intro S provider bridge ended after hBegin
  have hProfile : profile = operation.requiredProfile := by
    have hOwner := (validate_ok hValid).1
    rwa [hRequest] at hOwner
  rw [hProfile] at h
  obtain ⟨error, hError⟩ := RequesterBridge.beginOperation_closed hBegin h
  exact ⟨error, hError, fun got hOversized => send_not_oversized hEvery got (hOversized ▸ hError)⟩

def smallBatch : CardOperation :=
  .batchSignDocuments ["Contract.pdf", "Annex.pdf"] .ecdsaP384 .ecdsaSha256
    [replicate 32 1, replicate 32 2]

theorem smallBatch_fits :
    ∃ request, reconstruct (FixedBytes.replicate operationIdSize 0) .documentSigning 0 1
      smallBatch = .ok request ∧ request.FitsEveryFrame := by
  have hAccepted : (reconstruct (FixedBytes.replicate operationIdSize 0) .documentSigning 0 1
      smallBatch).isOk = true := by decide +kernel
  obtain ⟨request, hRequest⟩ := exists_of_isOk hAccepted
  refine ⟨request, hRequest, ((accepted_request_fits_iff hRequest).mpr ?_).1⟩
  rintro _ _ _ _ ⟨⟩
  decide +kernel

/-- Ordinary names, on a batch whose result is below the bound. -/
def largeBatch : CardOperation :=
  .batchSignDocuments (replicate 950 "Employment_Contract_2026_Annex_00042.pdf") .ecdsaP256
    .ecdsaSha256 (replicate 950 (replicate 32 0))

theorem largeBatch_valid : largeBatch.validate = .ok () := by
  have hResult : ensureBatchResultFitsOneFrame 950 .ecdsaP256 = .ok () := by
    rw [ensureBatchResultFitsOneFrame_ok_iff]
    decide +kernel
  rw [largeBatch, CardOperation.validate, length_replicate, length_replicate, if_neg (by simp),
    zip_replicate', validateBatch_ok_iff.mpr ?_, ok_bind, hResult]
  intro document hMem
  rw [eq_of_mem_replicate hMem]
  decide +kernel

theorem largeBatch_oversized :
    ∃ request, reconstruct (FixedBytes.replicate operationIdSize 0) .documentSigning 0 1
      largeBatch = .ok request ∧ ¬ request.FitsEveryFrame := by
  have hValid : validate ⟨FixedBytes.replicate operationIdSize 0, .documentSigning, 0, 1,
      largeBatch⟩ = .ok () := by
    rw [validate, if_neg (by decide), if_neg (by decide), largeBatch_valid]
    rfl
  refine ⟨⟨FixedBytes.replicate operationIdSize 0, .documentSigning, 0, 1, largeBatch⟩, ?_,
    fun hFits => ?_⟩
  · rw [reconstruct, hValid]
    rfl
  have hSize := (frameSize_le_iff hValid).mp ((fitsEveryFrame_iff hValid).mp hFits) _ _ _ _ rfl
  have hName : byteLen "Employment_Contract_2026_Annex_00042.pdf" = 40 := by decide +kernel
  simp only [batchFrameSize, stringsSize, map_replicate, length_replicate,
    sum_replicate_nat, hName] at hSize
  exact absurd hSize (by decide)

/-- The result of an accepted batch always travels in one frame and answers
its request: no signatures of admitted lengths, session, sequence or
identifier make a longer envelope than the one measured at admission. -/
theorem accepted_batch_answerable {request : OperationRequest} {documentNames : List String}
    {keyProfile : CardKeyProfile} {algorithm : SignatureAlgorithm} {digests : List Bytes}
    (hOperation : request.operation =
      .batchSignDocuments documentNames keyProfile algorithm digests)
    (hValid : request.validate = .ok ()) (sessionId : SessionId) (sequence : UInt64)
    (operationId : OperationId) {signatures : List Bytes}
    (hCount : signatures.length = digests.length) (hSizes : ∀ signature ∈ signatures,
      1 ≤ signature.length ∧ signature.length ≤ keyProfile.signatureSize) :
    ∃ body bytes,
      (OperationResultMessage.completed operationId (.signatures signatures)).toWireBody =
          .ok body ∧
      (Envelope.reconstruct .operationResult sessionId sequence body >>= Envelope.encode) =
          .ok bytes ∧ bytes.length ≤ maxFramePlaintext ∧
      (OperationResultMessage.completed operationId (.signatures signatures)).validateFor
          operationId request.operation = .ok () := by
  have hAdmitted : ensureBatchResultFitsOneFrame digests.length keyProfile = .ok () := by
    have hBatch := (validate_ok hValid).2.1
    rw [hOperation, CardOperation.validate] at hBatch
    split_ifs at hBatch
    obtain ⟨_, -, hAdmitted⟩ := bind_eq_ok.mp hBatch
    exact hAdmitted
  have hLengths : stringsSize (signatures.map List.length) ≤
      stringsSize (List.replicate digests.length keyProfile.signatureSize) := by
    have hWord : keyProfile.signatureSize < 2 ^ 64 := by cases keyProfile <;> decide
    have hAll : ∀ length ∈ signatures.map List.length, length ≤ keyProfile.signatureSize := by
      intro length hMem
      obtain ⟨signature, hSignature, rfl⟩ := mem_map.mp hMem
      exact (hSizes signature hSignature).2
    have hReplicate := stringsSize_le_replicate hWord hAll
    rwa [length_map, hCount] at hReplicate
  have hFrame := ensureBatchResultFitsOneFrame_ok_iff.mp hAdmitted
  have hSized := OperationResultMessage.sized_completedBatch operationId signatures
  have hBound : Envelope.sizeAround .operationResult (UInt64.ofNat (2 ^ 64 - 1))
      (OperationResultMessage.batchBodySize (signatures.map List.length)) ≤ maxFramePlaintext := by
    simp only [Envelope.sizeAround, OperationResultMessage.batchBodySize] at hFrame ⊢
    omega
  obtain ⟨bytes, hEncode, hLength⟩ :=
    (fits_iff (operationResult_valid _) hSized).mpr hBound sessionId sequence
  refine ⟨_, bytes, rfl, hEncode, hLength, ?_⟩
  rw [hOperation]
  refine validateFor_signatures operationId hCount ?_
  intro signature hMem hEmpty
  have hPositive := (hSizes signature hMem).1
  simp [hEmpty] at hPositive

/-- The batch of two documents, answered with one short and one full
signature. -/
theorem smallBatch_answerable : ∃ body bytes,
      (OperationResultMessage.completed (FixedBytes.replicate operationIdSize 7)
        (.signatures [[1], replicate 96 2])).toWireBody = .ok body ∧
      (Envelope.reconstruct .operationResult (FixedBytes.replicate sessionIdSize 3) 5 body >>=
        Envelope.encode) = .ok bytes := by
  have hAccepted : (reconstruct (FixedBytes.replicate operationIdSize 7) .documentSigning 0 1
      smallBatch).isOk = true := by decide +kernel
  obtain ⟨request, hRequest⟩ := exists_of_isOk hAccepted
  obtain ⟨rfl, hValid⟩ := reconstruct_ok hRequest
  have hCount : [[1], replicate 96 (2 : UInt8)].length =
      [replicate 32 (1 : UInt8), replicate 32 2].length := rfl
  have hSizes : ∀ signature ∈ [[1], replicate 96 (2 : UInt8)],
      1 ≤ signature.length ∧ signature.length ≤ CardKeyProfile.ecdsaP384.signatureSize := by
    decide
  obtain ⟨body, bytes, hBody, hEncode, -⟩ := accepted_batch_answerable rfl hValid
    (FixedBytes.replicate sessionIdSize 3) 5 (FixedBytes.replicate operationIdSize 7) hCount hSizes
  exact ⟨body, bytes, hBody, hEncode⟩

end OperationRequest

end RefineId.Rapp
