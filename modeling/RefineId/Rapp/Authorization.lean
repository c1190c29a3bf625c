import RefineId.Rapp.Operation

/-! Holder consent and the one card command an approved operation gives
(`crates/rapp/src/authorization.rs`). The methods of a transaction change it
only when they succeed, so a failed call has no new transaction. -/
namespace RefineId.Rapp

open Data

structure UserApproval where
  operationId : OperationId
  approvedAtMs : UInt64
  deriving DecidableEq

structure AuthorizedCardCommand where
  operation : CardOperation
  deriving DecidableEq

/-- A read that commands no private key. -/
structure AuthorizedSafeRead where
  operation : CardOperation
  deriving DecidableEq

inductive AuthorizationStage where
  | requested
  | awaitingConsent
  | executingSafeRead
  | executing
  | terminal
  deriving DecidableEq

inductive AuthorizationError where
  | approvalMismatch
  | expired
  | wrongStage (stage : AuthorizationStage)
  | invalidResult
  deriving DecidableEq

inductive PrerequisitesOutcome where
  | awaitConsent
  | executeSafeRead (read : AuthorizedSafeRead)
  deriving DecidableEq

/-- One operation from its admission to its result. -/
structure AuthorizationTransaction where
  request : OperationRequest
  stage : AuthorizationStage
  batchSignatures : List Bytes
  deriving DecidableEq

namespace AuthorizationTransaction

def prepare (request : OperationRequest) : AuthorizationTransaction :=
  ⟨request, .requested, []⟩

def operationId (transaction : AuthorizationTransaction) : OperationId :=
  transaction.request.operationId

variable (transaction : AuthorizationTransaction)

def isTerminal : Bool :=
  transaction.stage = .terminal

def prerequisitesComplete :
    Except AuthorizationError (PrerequisitesOutcome × AuthorizationTransaction) :=
  if transaction.stage ≠ .requested then .error (.wrongStage transaction.stage)
  else if transaction.request.operation.isConsequential then
    .ok (.awaitConsent, { transaction with stage := .awaitingConsent })
  else
    .ok (.executeSafeRead ⟨transaction.request.operation⟩,
      { transaction with stage := .executingSafeRead })

def approve (approval : UserApproval) (nowMs maximumLifetimeMs : UInt64) :
    Except AuthorizationError (AuthorizedCardCommand × AuthorizationTransaction) :=
  if transaction.stage ≠ .awaitingConsent then .error (.wrongStage transaction.stage)
  else if approval.operationId ≠ transaction.request.operationId then .error .approvalMismatch
  else
    match transaction.request.localDeadlineMs maximumLifetimeMs with
    | .error _ => .error .expired
    | .ok deadline =>
      if approval.approvedAtMs < transaction.request.localStartMs ||
          deadline < approval.approvedAtMs || deadline < nowMs then .error .expired
      else .ok (⟨transaction.request.operation⟩, { transaction with stage := .executing })

variable (result : OperationResultMessage)

def finishFailure : Except AuthorizationError AuthorizationTransaction :=
  if transaction.isTerminal then .error (.wrongStage transaction.stage)
  else if result.status = .completed then .error .invalidResult
  else
    match result.validateFor transaction.request.operationId transaction.request.operation with
    | .error _ => .error .invalidResult
    | .ok () => .ok { transaction with stage := .terminal }

/-- Whether a completed result carries exactly the signatures a batch has
recorded, one per document; other operations have nothing to compare. -/
def answersBatch : Bool :=
  match transaction.request.operation.batchTotal with
  | none => true
  | some total =>
    let recorded := CardOperationResult.signatures transaction.batchSignatures
    let answered := result.response.map fun response =>
      response.typedFor transaction.request.operation
    transaction.batchSignatures.length = total && answered = some (.ok recorded)

def finishCompleted : Except AuthorizationError AuthorizationTransaction :=
  if transaction.stage ≠ .executing && transaction.stage ≠ .executingSafeRead then
    .error (.wrongStage transaction.stage)
  else if result.status ≠ .completed then .error .invalidResult
  else
    match result.validateFor transaction.request.operationId transaction.request.operation with
    | .error _ => .error .invalidResult
    | .ok () =>
      if !transaction.answersBatch result then .error .invalidResult
      else .ok { transaction with stage := .terminal }

def recordBatchSignature (signature : Bytes) : Except AuthorizationError AuthorizationTransaction :=
  if transaction.stage ≠ .executing then .error (.wrongStage transaction.stage)
  else
    match transaction.request.operation.batchTotal with
    | none => .error .invalidResult
    | some total =>
      if total ≤ transaction.batchSignatures.length || signature.isEmpty then
        .error .invalidResult
      else
        .ok { transaction with batchSignatures := transaction.batchSignatures ++ [signature] }

def isExpired (nowMs maximumLifetimeMs : UInt64) : Bool :=
  match transaction.request.localDeadlineMs maximumLifetimeMs with
  | .ok deadline => deadline < nowMs
  | .error _ => false

section Success
variable {transaction after : AuthorizationTransaction}

theorem prerequisitesComplete_ok {outcome}
    (h : transaction.prerequisitesComplete = .ok (outcome, after)) :
    transaction.stage = .requested ∧
      ((outcome = .awaitConsent ∧ after = { transaction with stage := .awaitingConsent }) ∨
        (transaction.request.operation.isConsequential = false ∧
          outcome = .executeSafeRead ⟨transaction.request.operation⟩ ∧
          after = { transaction with stage := .executingSafeRead })) := by
  unfold prerequisitesComplete at h
  split at h
  · cases h
  rename_i hStage
  refine ⟨not_not.mp hStage, ?_⟩
  split at h
  · cases h
    exact Or.inl ⟨rfl, rfl⟩
  · rename_i hSafe
    cases h
    exact Or.inr ⟨by simpa using hSafe, rfl, rfl⟩

/-- A command exists only for an approval that names the operation, given
and applied within the deadline. -/
theorem approve_ok {approval nowMs maximumLifetimeMs command}
    (h : transaction.approve approval nowMs maximumLifetimeMs = .ok (command, after)) :
    transaction.stage = .awaitingConsent ∧ approval.operationId = transaction.operationId ∧
      (∃ deadline, transaction.request.localDeadlineMs maximumLifetimeMs = .ok deadline ∧
        approval.approvedAtMs ≤ deadline ∧ nowMs ≤ deadline) ∧
      command = ⟨transaction.request.operation⟩ ∧
      after = { transaction with stage := .executing } := by
  unfold approve at h
  split at h
  · cases h
  rename_i hStage
  split_ifs at h with hNamed
  split at h
  · cases h
  rename_i deadline hDeadline
  split_ifs at h with hInTime
  cases h
  simp only [Bool.or_eq_true, decide_eq_true_eq, not_or, UInt64.not_lt] at hInTime
  exact ⟨not_not.mp hStage, not_not.mp hNamed, ⟨deadline, hDeadline, hInTime.1.2, hInTime.2⟩,
    rfl, rfl⟩

variable {result : OperationResultMessage}

theorem finishFailure_ok (h : transaction.finishFailure result = .ok after) :
    transaction.isTerminal = false ∧
      result.validateFor transaction.operationId transaction.request.operation = .ok () ∧
      after = { transaction with stage := .terminal } := by
  unfold finishFailure at h
  split at h
  · cases h
  rename_i hOpen
  split_ifs at h
  split at h
  · cases h
  rename_i hValid
  cases h
  exact ⟨by simpa using hOpen, hValid, rfl⟩

theorem finishCompleted_ok (h : transaction.finishCompleted result = .ok after) :
    transaction.isTerminal = false ∧
      result.validateFor transaction.operationId transaction.request.operation = .ok () ∧
      after = { transaction with stage := .terminal } ∧
      transaction.answersBatch result = true := by
  unfold finishCompleted at h
  split at h
  · cases h
  rename_i hStage
  split at h
  · cases h
  split at h
  · cases h
  rename_i hValid
  split_ifs at h with hAnswers
  cases h
  refine ⟨?_, hValid, rfl, by simpa using hAnswers⟩
  rw [isTerminal, decide_eq_false_iff_not]
  intro hTerminal
  simp [hTerminal] at hStage

theorem recordBatchSignature_ok {signature}
    (h : transaction.recordBatchSignature signature = .ok after) :
    transaction.stage = .executing ∧ signature ≠ [] ∧
      after = { transaction with batchSignatures := transaction.batchSignatures ++ [signature] } := by
  unfold recordBatchSignature at h
  split_ifs at h with hStage
  split at h
  · cases h
  split_ifs at h with hRoom
  cases h
  refine ⟨not_not.mp hStage, ?_, rfl⟩
  rintro rfl
  simp at hRoom

end Success

end AuthorizationTransaction

/-- Changes of a pending operation the custodian reports. -/
inductive ProgressEvent where
  | queued
  | consentShown
  | waitingForCard
  | cardWaitEnded
  | waitingForUnlock
  deriving DecidableEq

namespace ProgressEvent

def asStr : ProgressEvent → String
  | queued => "queued"
  | consentShown => "consent_shown"
  | waitingForCard => "waiting_for_card"
  | cardWaitEnded => "card_wait_ended"
  | waitingForUnlock => "waiting_for_unlock"

def parse (value : String) : Except CardOperationError ProgressEvent :=
  match value with
  | "queued" => .ok queued
  | "consent_shown" => .ok consentShown
  | "waiting_for_card" => .ok waitingForCard
  | "card_wait_ended" => .ok cardWaitEnded
  | "waiting_for_unlock" => .ok waitingForUnlock
  | _ => .error (.invalidField "event")

@[simp] theorem parse_asStr (event : ProgressEvent) : parse event.asStr = .ok event := by
  cases event <;> rfl

end ProgressEvent

structure OperationProgressMessage where
  operationId : OperationId
  event : ProgressEvent
  deriving DecidableEq

namespace OperationProgressMessage

def toWireBody (message : OperationProgressMessage) : Body :=
  BTreeMap.ofList
    [("operation_id", .bytes message.operationId.val), ("event", .text message.event.asStr)]

def takeMessage : Fields String WireValue CardOperationError OperationProgressMessage := do
  let idBytes ← takeCard WireValue.asBytes? "operation_id"
  match reconstructIdentifier operationIdSize idBytes with
  | .error _ => throw .invalidIdentifier
  | .ok operationId => do
      let event ← ProgressEvent.parse (← takeCard WireValue.asText? "event")
      requireEmpty .unexpectedField
      pure ⟨operationId, event⟩

def fromWireBody (body : Body) : Except CardOperationError OperationProgressMessage := do
  let (message, _) ← takeMessage body
  .ok message

end OperationProgressMessage

end RefineId.Rapp
