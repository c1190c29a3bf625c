import Mathlib.Data.Finset.Card
import RefineId.Rapp.Message
import RefineId.Semantics.Run

/-! The custodian's operations of one session
(`crates/rapp/src/proxy_engine.rs`): one live at a time, every identifier
used once. -/
namespace RefineId.Rapp

open Data Semantics

/-- How many identifiers one session remembers. -/
def maxSeenOperationIds : Nat := 4096

inductive ProxyDispatch where
  | inspectPrerequisites (operationId : OperationId)
  | awaitConsent (operationId : OperationId)
  | executeSafeRead (operationId : OperationId) (read : AuthorizedSafeRead)
  | executeCardCommand (operationId : OperationId) (command : AuthorizedCardCommand)
  | send (message : TypedMessage)
  | notOperation (message : TypedMessage)

inductive ProxyViolation where
  | custodianOnlyMessage
  | operationMemoryExhausted
  deriving DecidableEq

inductive ProxyEngineError where
  | invalidLocalTransition
  | unknownLocalOperation
  | authenticatedProtocolViolation (violation : ProxyViolation)
  deriving DecidableEq

structure ProxyOperationEngine where
  grantedProfiles : List ProfileName
  live : Option AuthorizationTransaction
  seen : Finset OperationId

namespace ProxyOperationEngine

def new (grantedProfiles : List ProfileName) : ProxyOperationEngine :=
  ⟨grantedProfiles, none, ∅⟩

variable (engine : ProxyOperationEngine)

/-- Whether an operation is live without a result. -/
def occupied : Bool :=
  engine.live.any fun operation => !operation.isTerminal

variable (operationId : OperationId)

def liveMut : Except ProxyEngineError AuthorizationTransaction :=
  match engine.live with
  | some operation =>
    if operation.operationId = operationId then .ok operation else .error .unknownLocalOperation
  | none => .error .unknownLocalOperation

/-- The answer that refuses a request before admission, if any. A fresh
identifier counts as seen from here on. -/
def admissionRefusal : Except ProxyEngineError (Option ProxyDispatch × ProxyOperationEngine) :=
  if operationId ∈ engine.seen then
    .ok (some (.send (.error (.duplicate operationId))), engine)
  else if maxSeenOperationIds ≤ engine.seen.card then
    .error (.authenticatedProtocolViolation .operationMemoryExhausted)
  else
    let remembered := { engine with seen := insert operationId engine.seen }
    if engine.occupied then .ok (some (.send (.error (.busy operationId))), remembered)
    else .ok (none, remembered)

def receiveRequest (request : OperationRequest) :
    Except ProxyEngineError (ProxyDispatch × ProxyOperationEngine) := do
  match ← engine.admissionRefusal request.operationId with
  | (some answer, engine) => .ok (answer, engine)
  | (none, engine) =>
    if !engine.grantedProfiles.contains request.profile then
      .ok (.send (.operationResult (.failure request.operationId .unauthorized)), engine)
    else
      .ok (.inspectPrerequisites request.operationId,
        { engine with live := some (.prepare request) })

/-- Dispatch one authenticated message of the peer. A violation leaves the
engine as it was. -/
def receive (message : TypedMessage) :
    Except ProxyEngineError (ProxyDispatch × ProxyOperationEngine) :=
  match message with
  | .operationRequest request => engine.receiveRequest request
  | .operationRequestRefused refusal => do
      match ← engine.admissionRefusal refusal.operationId with
      | (some answer, engine) => .ok (answer, engine)
      | (none, engine) =>
        .ok (.send (.operationResult (.rejection refusal.operationId .rejected refusal.error)),
          engine)
  | .operationResult _ | .operationProgress _ | .cardStatus _ =>
    .error (.authenticatedProtocolViolation .custodianOnlyMessage)
  | other => .ok (.notOperation other, engine)

/-- The engine with a new state of its live operation, when the transaction
allowed the transition. -/
def transition {α : Type} (engine : ProxyOperationEngine)
    (outcome : Except AuthorizationError (α × AuthorizationTransaction)) :
    Except ProxyEngineError (α × ProxyOperationEngine) :=
  match outcome with
  | .error _ => .error .invalidLocalTransition
  | .ok (value, operation) => .ok (value, { engine with live := some operation })

def finishCompleted (engine : ProxyOperationEngine) (operationId : OperationId)
    (result : OperationResultMessage) :
    Except ProxyEngineError (ProxyDispatch × ProxyOperationEngine) := do
  let operation ← engine.liveMut operationId
  engine.transition do
    let operation ← operation.finishCompleted result
    .ok (.send (.operationResult result), operation)

def finishFailure (engine : ProxyOperationEngine) (operationId : OperationId)
    (failure : ProxyFailure) : Except ProxyEngineError (ProxyDispatch × ProxyOperationEngine) := do
  let result := OperationResultMessage.failure operationId failure
  let operation ← engine.liveMut operationId
  engine.transition do
    let operation ← operation.finishFailure result
    .ok (.send (.operationResult result), operation)

def prerequisitesComplete (engine : ProxyOperationEngine) (operationId : OperationId)
    (nowMs maximumLifetimeMs : UInt64) :
    Except ProxyEngineError (ProxyDispatch × ProxyOperationEngine) := do
  let operation ← engine.liveMut operationId
  if operation.stage = .requested && operation.isExpired nowMs maximumLifetimeMs then
    engine.finishFailure operationId .requestExpired
  else
    engine.transition do
      match ← operation.prerequisitesComplete with
      | (.awaitConsent, operation) => .ok (.awaitConsent operationId, operation)
      | (.executeSafeRead read, operation) => .ok (.executeSafeRead operationId read, operation)

def approve (engine : ProxyOperationEngine) (operationId : OperationId) (approval : UserApproval)
    (nowMs maximumLifetimeMs : UInt64) :
    Except ProxyEngineError (ProxyDispatch × ProxyOperationEngine) := do
  let operation ← engine.liveMut operationId
  if operation.stage = .awaitingConsent && operation.isExpired nowMs maximumLifetimeMs then
    engine.finishFailure operationId .requestExpired
  else
    engine.transition do
      let (command, operation) ← operation.approve approval nowMs maximumLifetimeMs
      .ok (.executeCardCommand operationId command, operation)

/-- Cancel the live operation when its deadline passed before the card was
commanded. -/
def expireDue (nowMs maximumLifetimeMs : UInt64) :
    Except ProxyEngineError (Option ProxyDispatch × ProxyOperationEngine) :=
  match engine.live with
  | none => .ok (none, engine)
  | some operation =>
    let waiting := operation.stage = .requested || operation.stage = .awaitingConsent
    if !waiting || !operation.isExpired nowMs maximumLifetimeMs then .ok (none, engine)
    else do
      let (dispatch, engine) ← engine.finishFailure operation.operationId .requestExpired
      .ok (some dispatch, engine)

def recordBatchSignature (engine : ProxyOperationEngine) (operationId : OperationId)
    (signature : Bytes) : Except ProxyEngineError (Unit × ProxyOperationEngine) := do
  let operation ← engine.liveMut operationId
  engine.transition do
    let operation ← operation.recordBatchSignature signature
    .ok ((), operation)

def completeBatch : Except ProxyEngineError (ProxyDispatch × ProxyOperationEngine) := do
  let operation ← engine.liveMut operationId
  engine.finishCompleted operationId
    (.completed operationId (.signatures operation.batchSignatures))

def reportProgress (event : ProgressEvent) : Except ProxyEngineError TypedMessage :=
  match engine.live with
  | some operation =>
    if operation.operationId = operationId then
      if operation.isTerminal then .error .invalidLocalTransition
      else .ok (.operationProgress ⟨operationId, event⟩)
    else .error .unknownLocalOperation
  | none => .error .unknownLocalOperation

end ProxyOperationEngine

end RefineId.Rapp
