import RefineId.Rapp.Card

/-! Operation results and the registry of error names
(`crates/rapp/src/result.rs`). -/
namespace RefineId.Rapp

open Data BTreeMap

inductive ResultStatus where
  | completed
  | rejected
  | cancelled
  deriving DecidableEq

namespace ResultStatus

def asStr : ResultStatus → String
  | completed => "completed"
  | rejected => "rejected"
  | cancelled => "cancelled"

def parse (value : String) : Except CardOperationError ResultStatus :=
  match value with
  | "completed" => .ok completed
  | "rejected" => .ok rejected
  | "cancelled" => .ok cancelled
  | _ => .error (.invalidField "status")

@[simp] theorem parse_asStr (status : ResultStatus) : parse status.asStr = .ok status := by
  cases status <;> rfl

end ResultStatus

inductive ResultError where
  | busy
  | duplicateOperation
  | invalidLifetime
  | operationExpired
  | unauthorized
  | unsupportedParameter
  | userCancelled
  | retryFloor
  | cardError
  | operationFailed
  deriving DecidableEq

namespace ResultError

def asStr : ResultError → String
  | busy => "busy"
  | duplicateOperation => "duplicate_operation"
  | invalidLifetime => "invalid_lifetime"
  | operationExpired => "operation_expired"
  | unauthorized => "unauthorized"
  | unsupportedParameter => "unsupported_parameter"
  | userCancelled => "user_cancelled"
  | retryFloor => "retry_floor"
  | cardError => "card_error"
  | operationFailed => "operation_failed"

def parse (value : String) : Except CardOperationError ResultError :=
  match value with
  | "busy" => .ok busy
  | "duplicate_operation" => .ok duplicateOperation
  | "invalid_lifetime" => .ok invalidLifetime
  | "operation_expired" => .ok operationExpired
  | "unauthorized" => .ok unauthorized
  | "unsupported_parameter" => .ok unsupportedParameter
  | "user_cancelled" => .ok userCancelled
  | "retry_floor" => .ok retryFloor
  | "card_error" => .ok cardError
  | "operation_failed" => .ok operationFailed
  | _ => .error (.invalidField "error")

@[simp] theorem parse_asStr (error : ResultError) : parse error.asStr = .ok error := by
  cases error <;> rfl

/-- Whether a result may pair this error with a status. Errors that answer a
request the session never admitted fit no result. -/
def permits : ResultError → ResultStatus → Bool
  | operationExpired, status => status = .cancelled
  | busy, _ | duplicateOperation, _ => false
  | _, status => status = .rejected

end ResultError

/-- Why a custodian ends an admitted operation without a response. -/
inductive ProxyFailure where
  | requestExpired
  | requestInvalidOrUnsupported
  | unauthorized
  | userDenied
  | retryFloor
  | cardError
  | operationFailed
  deriving DecidableEq

namespace ProxyFailure

def status : ProxyFailure → ResultStatus
  | requestExpired => .cancelled
  | _ => .rejected

def error : ProxyFailure → ResultError
  | requestExpired => .operationExpired
  | requestInvalidOrUnsupported => .unsupportedParameter
  | unauthorized => .unauthorized
  | userDenied => .userCancelled
  | retryFloor => .retryFloor
  | cardError => .cardError
  | operationFailed => .operationFailed

end ProxyFailure

/-- The `take_*` helpers of operations and results: a missing field and one
of another type are the same error. -/
def takeCard {α : Type} (select : WireValue → Option α) (field : String) :
    Fields String WireValue CardOperationError α :=
  takeField (.invalidField field) (.invalidField field) select field

def resultToWire : CardOperationResult → Body
  | .inspection answerToReset => ofList [("atr", .bytes answerToReset)]
  | .identity identity =>
    let body := ofList
      [("card_holder_name", .text identity.holderName), ("card_id", .text identity.cardId),
        ("issuance_date", .text identity.issuanceDate),
        ("expiration_date", .text identity.expirationDate),
        ("certificates", .array (identity.certificates.map .bytes))]
    match identity.tokenDisplayName with
    | some name => body.insert "token_display_name" (.text name)
    | none => body
  | .certificate bytes => ofList [("certificate", .bytes bytes)]
  | .signature bytes => ofList [("signature", .bytes bytes)]
  | .signatures signatures => ofList [("signatures", .array (signatures.map .bytes))]

/-- A byte string that is not empty. -/
def WireValue.asNonemptyBytes? : WireValue → Option Bytes
  | .bytes value => if value.isEmpty then none else some value
  | _ => none

open WireValue

def takeByteArray (field : String) : Fields String WireValue CardOperationError (List Bytes) := do
  let values ← takeCard asArray? field
  liftM (selectAll (CardOperationError.invalidField field) asNonemptyBytes? values)

/-- The typed answer the operation calls for, taken from a response map. -/
def takeResult (operation : CardOperation) :
    Fields String WireValue CardOperationError CardOperationResult :=
  match operation with
  | .inspectCard => do
      let answerToReset ← takeCard asBytes? "atr"
      pure (.inspection answerToReset)
  | .readIdentity => do
      let values ← takeCard asArray? "certificates"
      let certificates ←
        liftM (selectAll (CardOperationError.invalidField "certificates") asBytes? values)
      let tokenDisplayName ←
        takeOptional (.invalidField "token_display_name") asText? "token_display_name"
      let holderName ← takeCard asText? "card_holder_name"
      let cardId ← takeCard asText? "card_id"
      let issuanceDate ← takeCard asText? "issuance_date"
      let expirationDate ← takeCard asText? "expiration_date"
      let identity ← CardIdentity.reconstruct holderName cardId issuanceDate expirationDate
        certificates tokenDisplayName
      pure (.identity identity)
  | .readCertificate _ => do
      let bytes ← takeCard asBytes? "certificate"
      pure (.certificate bytes)
  | .browserAuthenticate .. | .signDocument .. => do
      let bytes ← takeCard asBytes? "signature"
      pure (.signature bytes)
  | .batchSignDocuments .. => do
      let signatures ← takeByteArray "signatures"
      pure (.signatures signatures)

def resultFromWire (body : Body) (operation : CardOperation) :
    Except CardOperationError CardOperationResult := do
  let (result, rest) ← takeResult operation body
  if !rest.isEmpty then .error .unexpectedField else .ok result

/-- The response map of a completed result. Only the requester, which knows
the operation, reads it as a typed answer. -/
structure ResultResponse where
  fields : Body

namespace ResultResponse

def fromResult (result : CardOperationResult) : ResultResponse :=
  ⟨resultToWire result⟩

def typedFor (response : ResultResponse) (operation : CardOperation) :
    Except CardOperationError CardOperationResult :=
  resultFromWire response.fields operation

end ResultResponse

def resultMatchesOperation : CardOperationResult → CardOperation → Bool
  | .signatures signatures, .batchSignDocuments _ _ _ digests => signatures.length = digests.length
  | .inspection _, .inspectCard => true
  | .identity _, .readIdentity => true
  | .certificate _, .readCertificate _ => true
  | .signature _, .browserAuthenticate .. => true
  | .signature _, .signDocument .. => true
  | _, _ => false

structure OperationResultMessage where
  operationId : OperationId
  status : ResultStatus
  error : Option ResultError
  response : Option ResultResponse

namespace OperationResultMessage

def completed (operationId : OperationId) (result : CardOperationResult) : OperationResultMessage :=
  ⟨operationId, .completed, none, some (.fromResult result)⟩

def rejection (operationId : OperationId) (status : ResultStatus) (error : ResultError) :
    OperationResultMessage :=
  ⟨operationId, status, some error, none⟩

def failure (operationId : OperationId) (failure : ProxyFailure) : OperationResultMessage :=
  rejection operationId failure.status failure.error

variable (result : OperationResultMessage)

/-- A completed result has a response and no error; any other status has an
error registered for it and no response. -/
def isConsistent : Bool :=
  match result.status, result.error, result.response with
  | .completed, none, some _ => true
  | status, some error, none => status ≠ .completed && error.permits status
  | _, _, _ => false

def validateFor (operationId : OperationId)
    (operation : CardOperation) : Except CardOperationError Unit :=
  if result.operationId ≠ operationId then .error .operationMismatch
  else if !result.isConsistent then .error (.invalidField "result")
  else
    match result.response with
    | none => .ok ()
    | some response => do
        let typed ← response.typedFor operation
        if !resultMatchesOperation typed operation then .error .profileActionMismatch else .ok ()

variable {result : OperationResultMessage}

/-- A consistent result has a response and no error, or an error and no
response. -/
theorem isConsistent_cases (h : result.isConsistent = true) :
    (result.status = .completed ∧ result.error = none ∧
        ∃ response, result.response = some response) ∨
      (result.response = none ∧ ∃ error, result.error = some error) := by
  unfold isConsistent at h
  split at h
  · exact Or.inl ⟨‹_›, ‹_›, _, ‹_›⟩
  · exact Or.inr ⟨‹_›, _, ‹_›⟩
  · cases h

variable {operation : CardOperation}

theorem validateFor_ok {operationId} (h : result.validateFor operationId operation = .ok ()) :
    result.operationId = operationId ∧ result.isConsistent = true ∧
      ∀ response, result.response = some response →
        ∃ typed, response.typedFor operation = .ok typed := by
  unfold validateFor at h
  split at h
  · cases h
  rename_i hNamed
  split_ifs at h with hConsistent
  refine ⟨not_not.mp hNamed, by simpa using hConsistent, fun response hResponse => ?_⟩
  rw [hResponse] at h
  obtain ⟨typed, hTyped, -⟩ := bind_eq_ok.mp h
  exact ⟨typed, hTyped⟩

def wireBody : Body :=
  let body := ofList
    [("operation_id", .bytes result.operationId.val), ("status", .text result.status.asStr)]
  let body :=
    match result.error with
    | some error => body.insert "error" (.text error.asStr)
    | none => body
  match result.response with
  | some response => body.insert "response" (.map response.fields)
  | none => body

def toWireBody : Except CardOperationError Body :=
  if !result.isConsistent then .error (.invalidField "result") else .ok result.wireBody

def takeMessage : Fields String WireValue CardOperationError OperationResultMessage := do
  let idBytes ← takeCard asBytes? "operation_id"
  match reconstructIdentifier operationIdSize idBytes with
  | .error _ => throw .invalidIdentifier
  | .ok operationId => do
      let status ← ResultStatus.parse (← takeCard asText? "status")
      let errorName ← takeOptional (.invalidField "error") asText? "error"
      let error ← errorName.mapM (fun name => liftM (ResultError.parse name))
      let response ← takeOptional (.invalidField "response") asMap? "response"
      requireEmpty .unexpectedField
      pure ⟨operationId, status, error, response.map ResultResponse.mk⟩

def fromWireBody (body : Body) : Except CardOperationError OperationResultMessage := do
  let (message, _) ← takeMessage body
  if message.isConsistent then .ok message else .error (.invalidField "result")

end OperationResultMessage

end RefineId.Rapp
