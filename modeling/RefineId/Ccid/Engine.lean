import RefineId.Ccid.Codec
import RefineId.Data.Chunks

/-! The protocol engine of one reader slot (`crates/ccid/src/engine.rs`): a
pure state machine that turns operations and transfer completions into
transfers to submit and operations to complete.

Times are milliseconds without an upper end. The program is built with
overflow checks, so the one unsaturated addition of the source stops it where
this model goes on. -/
namespace RefineId.Ccid

open Data

def defaultEngineTimeoutMs : Nat := 5000

def wLevelNone : UInt16 := 0x0000
def wLevelBegin : UInt16 := 0x0001
def wLevelEnd : UInt16 := 0x0002
def wLevelContinue : UInt16 := 0x0003

def maxAbortDrainAttempts : Nat := 5
def maxTimeExtensions : Nat := 60
def maxTimeExtensionWallMs : Nat := 10000

def maximumT0TpduLength : Nat := 260
def maximumShortApduLength : Nat := 261
def maximumCcidCommandPayloadLength : Nat := 65544

abbrev OperationId := UInt64
abbrev DeadlineId := UInt64
abbrev MonotonicTime := Nat

structure Deadline where
  id : DeadlineId
  expiresAt : MonotonicTime
  deriving DecidableEq

inductive PendingOperation where
  | powerOn
  | powerOff
  | getSlotStatus
  | getParameters
  | setParametersT0
  | transferBlock
  | secure
  | abort
  deriving DecidableEq

inductive Operation where
  | powerOn (voltage : UInt8)
  | powerOff
  | getSlotStatus
  | getParameters
  | setParametersT0 (fiDi guardTime waitingInteger clockStop : UInt8) (inverseConvention : Bool)
  | transferBlock (bWi : UInt8) (wLevelParameter : UInt16) (data : Bytes)
  | secure (bWi : UInt8) (wLevelParameter : UInt16) (data : Bytes)
  | abort
  deriving DecidableEq

def Operation.kind : Operation → PendingOperation
  | powerOn _ => .powerOn
  | powerOff => .powerOff
  | getSlotStatus => .getSlotStatus
  | getParameters => .getParameters
  | setParametersT0 .. => .setParametersT0
  | transferBlock .. => .transferBlock
  | secure .. => .secure
  | abort => .abort

inductive OperationResult where
  | powerOn (atr : Bytes)
  | powerOff
  | slotStatus (cardPresent : Bool)
  | parameters (payload : Bytes)
  | parametersSet
  | transferBlock (payload : Bytes)
  | secure (payload : Bytes)
  | aborted
  deriving DecidableEq

inductive IoCompletion where
  | bulkIn (frame : Bytes)
  | bulkOut (transferred : Nat)
  | control
  | failure (error : CcidError)
  deriving DecidableEq

inductive InputEvent where
  | start (id : OperationId) (op : Operation)
  | ioCompleted (completion : IoCompletion)
  | interruptReceived (rawBytes : Bytes)
  | deadlineExpired (id : DeadlineId)
  | cancel (id : OperationId)
  | connectionLost
  deriving DecidableEq

inductive Action where
  | submitBulkOut (seq : UInt8) (data : Bytes)
  | submitBulkIn (bufferSize : Nat)
  | submitControl (requestType request : UInt8) (value index : UInt16) (data : Bytes)
  | complete (id : OperationId) (result : Except CcidError OperationResult)
  | publishSlotChange (slot : UInt8) (cardPresent : Bool) (cardGen : UInt64)
  | cancelTransfers

structure Transition where
  actions : List Action
  nextDeadline : Option Deadline

/-- The parts of a reader's descriptor that the engine reads. -/
structure CcidFunctionalDescriptor where
  exchangeLevel : CcidExchangeLevel
  maximumMessageLength : Nat
  maxSlotIndex : UInt8

variable (descriptor : CcidFunctionalDescriptor)

def CcidFunctionalDescriptor.maximumPayloadLength : Nat :=
  descriptor.maximumMessageLength - ccidHeaderSize

def CcidFunctionalDescriptor.maximumTransferBlockLength
    : Nat :=
  match descriptor.exchangeLevel with
  | .character | .tpdu => min descriptor.maximumPayloadLength maximumT0TpduLength
  | .shortApdu => min descriptor.maximumPayloadLength maximumShortApduLength
  | .shortAndExtendedApdu => descriptor.maximumPayloadLength

structure CcidEngine where
  interfaceNumber : UInt8
  bSlot : UInt8
  cardGen : UInt64
  nextSeq : UInt8
  cardPresent : Bool
  activated : Bool
  connected : Bool
  needsRecovery : Bool
  exchangeLevel : CcidExchangeLevel
  maxMessageLength : Nat
  maxPayloadLength : Nat
  maxSlotIndex : UInt8
  pendingOp : Option (OperationId × PendingOperation)
  expectedResponseType : UInt8
  expectedSeq : UInt8
  expectedBulkOutLen : Nat
  activeDeadlineId : UInt64
  currentDeadline : Option Deadline
  defaultTimeoutMs : Nat
  chainBuffer : Bytes
  outgoingChain : List Bytes
  pendingBWi : UInt8
  wtxCount : Nat
  opStartedAt : MonotonicTime
  abortDrainCount : Nat
  waitingUnitMs : Nat

namespace CcidEngine

def new (interfaceNumber bSlot : UInt8) (descriptor : CcidFunctionalDescriptor) : CcidEngine where
  interfaceNumber := interfaceNumber
  bSlot := bSlot
  cardGen := 1
  nextSeq := 0
  cardPresent := false
  activated := false
  connected := true
  needsRecovery := false
  exchangeLevel := descriptor.exchangeLevel
  maxMessageLength := descriptor.maximumMessageLength
  maxPayloadLength := descriptor.maximumTransferBlockLength
  maxSlotIndex := descriptor.maxSlotIndex
  pendingOp := none
  expectedResponseType := 0
  expectedSeq := 0
  expectedBulkOutLen := 0
  activeDeadlineId := 0
  currentDeadline := none
  defaultTimeoutMs := defaultEngineTimeoutMs
  chainBuffer := []
  outgoingChain := []
  pendingBWi := 0
  wtxCount := 0
  opStartedAt := 0
  abortDrainCount := 0
  waitingUnitMs := 1000

section Updates
variable (engine : CcidEngine)

/-- The pending operation taken and its deadline dropped. -/
def finish : CcidEngine :=
  { engine with pendingOp := none, currentDeadline := none }

def requireRecovery : CcidEngine :=
  { engine with needsRecovery := true }

/-- The card is gone: a new card generation begins without one. -/
def loseCard : CcidEngine :=
  { engine with cardPresent := false, activated := false, cardGen := engine.cardGen + 1 }

def clearChain : CcidEngine :=
  { engine with chainBuffer := [] }

def clearOutgoing : CcidEngine :=
  { engine with outgoingChain := [] }

def deactivate : CcidEngine :=
  { engine with activated := false }

def disconnect : CcidEngine :=
  { engine with connected := false, cardPresent := false, activated := false }

def setOutgoing (chain : List Bytes) : CcidEngine :=
  { engine with outgoingChain := chain }

def appendChain (payload : Bytes) : CcidEngine :=
  { engine with chainBuffer := engine.chainBuffer ++ payload }

def expectBulkOut (length : Nat) : CcidEngine :=
  { engine with expectedBulkOutLen := length }

def countExtension : CcidEngine :=
  { engine with wtxCount := min (engine.wtxCount + 1) (2 ^ 32 - 1) }

def countDrain : CcidEngine :=
  { engine with abortDrainCount := engine.abortDrainCount + 1 }

def activate : CcidEngine :=
  { engine with activated := true, cardPresent := true }

/-- `allocate_seq`: the sequence number taken is the one awaited. -/
def allocateSeq : CcidEngine :=
  { engine with nextSeq := engine.nextSeq + 1, expectedSeq := engine.nextSeq }

def armDeadline (expiresAt : MonotonicTime) : CcidEngine :=
  { engine with
    activeDeadlineId := engine.activeDeadlineId + 1
    currentDeadline := some ⟨engine.activeDeadlineId + 1, expiresAt⟩ }

def submitBulkIn : Action :=
  .submitBulkIn (max engine.maxMessageLength ccidHeaderSize)

end Updates

section Start
variable (engine : CcidEngine)

def payloadTooLong : Operation → Bool
  | .transferBlock _ _ data =>
    let maxPayloadBound := match engine.exchangeLevel with
      | .shortAndExtendedApdu => maximumCcidCommandPayloadLength
      | _ => engine.maxPayloadLength
    maxPayloadBound < data.length
  | .secure _ _ data => engine.maxPayloadLength < data.length
  | _ => false

/-- Why an operation is not taken on, in the order of the source's checks. -/
def refusal (op : Operation) : Option CcidError :=
  if !engine.connected then some (.io .connectionLost)
  else if engine.needsRecovery && op ≠ .abort then
    some (.protocolDesync .slotRecoveryRequired)
  else if engine.pendingOp.isSome then some (.protocolDesync .operationAlreadyPending)
  else if engine.payloadTooLong op then some .apduTooLong
  else none

variable (now : MonotonicTime)

def reset : CcidEngine :=
  { engine with wtxCount := 0, opStartedAt := now, chainBuffer := [], outgoingChain := [] }

/-- Whether a block is longer than one message of a reader that takes
extended APDUs in several. -/
def splits (data : Bytes) : Bool :=
  engine.exchangeLevel = .shortAndExtendedApdu && 0 < engine.maxPayloadLength &&
    engine.maxPayloadLength < data.length

def encode (seq : UInt8) : Operation → Bytes
  | .powerOn voltage => encodeIccPowerOn engine.bSlot seq voltage
  | .powerOff => encodeIccPowerOff engine.bSlot seq
  | .getSlotStatus => encodeGetSlotStatus engine.bSlot seq
  | .getParameters => encodeGetParameters engine.bSlot seq
  | .setParametersT0 fiDi guardTime waitingInteger clockStop inverseConvention =>
    encodeSetParametersT0 engine.bSlot seq fiDi guardTime waitingInteger clockStop inverseConvention
  | .transferBlock bWi wLevelParameter data =>
    if engine.splits data then
      encodeXfrBlock engine.bSlot seq bWi wLevelBegin (data.take engine.maxPayloadLength)
    else encodeXfrBlock engine.bSlot seq bWi wLevelParameter data
  | .secure bWi wLevelParameter data => encodeSecure engine.bSlot seq bWi wLevelParameter data
  | .abort => encodeAbort engine.bSlot seq

def expectedResponse : Operation → UInt8
  | .powerOn _ | .transferBlock .. | .secure .. => rdrToPcDataBlock
  | .powerOff | .getSlotStatus | .abort => rdrToPcSlotStatus
  | .getParameters | .setParametersT0 .. => rdrToPcParameters

/-- The later messages of a block that is split are kept for the reader to
ask for. -/
def keepChain : Operation → CcidEngine
  | .transferBlock bWi _ data =>
    if engine.splits data then
      { engine with
        outgoingChain := chunks engine.maxPayloadLength (data.drop engine.maxPayloadLength)
        pendingBWi := bWi }
    else engine
  | _ => engine

/-- The state in which an operation that was not refused is in flight. -/
def started (id : OperationId) (op : Operation) : CcidEngine :=
  let fresh := ((engine.reset now).allocateSeq.keepChain op).armDeadline
    (now + engine.defaultTimeoutMs)
  match op with
  | .abort =>
    { fresh with
      pendingOp := some (id, .abort)
      expectedResponseType := expectedResponse op
      abortDrainCount := 0 }
  | _ =>
    { fresh with
      pendingOp := some (id, op.kind)
      expectedResponseType := expectedResponse op
      expectedBulkOutLen := (engine.encode engine.nextSeq op).length }

/-- The transfer an operation begins with: a control request for an abort,
its first message otherwise. -/
def opening (op : Operation) : Action :=
  match op with
  | .abort =>
    .submitControl ccidControlRequestType ccidControlRequestAbort
      (u16FromBytes engine.nextSeq engine.bSlot) engine.interfaceNumber.toUInt16 []
  | _ => .submitBulkOut engine.nextSeq (engine.encode engine.nextSeq op)

def start (id : OperationId) (op : Operation) : Transition × CcidEngine :=
  match engine.refusal op with
  | some error => (⟨[.complete id (.error error)], none⟩, engine)
  | none =>
    let after := engine.started now id op
    (⟨[engine.opening op], after.currentDeadline⟩, after)

end Start

/-- What one handler leaves: the engine and the actions it asks for. -/
structure Outcome where
  engine : CcidEngine
  actions : List Action

section Interrupt
variable (engine : CcidEngine)

/-- The pending operation, if any, ends with `error` and its transfers are
cancelled. -/
def cancelPending (error : CcidError) : List Action :=
  match engine.pendingOp with
  | some (id, _) => [.cancelTransfers, .complete id (.error error)]
  | none => []

def notePresence (present : Bool) : CcidEngine :=
  { engine with cardPresent := present, cardGen := engine.cardGen + 1 }

def slotChanged (present changed : Bool) : Outcome :=
  if changed || present ≠ engine.cardPresent then
    let noted := engine.notePresence present
    let publish := Action.publishSlotChange engine.bSlot present noted.cardGen
    if changed || !present then
      let idle := if engine.pendingOp.isSome then noted.deactivate.finish else noted.deactivate
      ⟨idle, engine.cancelPending .cardRemoved ++ [publish]⟩
    else ⟨noted, [publish]⟩
  else ⟨engine, []⟩

def interruptReceived (rawBytes : Bytes) : Outcome :=
  if rawBytes.head? = some rdrToPcHardwareError then
    match decodeInterruptHardwareError rawBytes with
    | .ok hwErr =>
      if hwErr.slot = engine.bSlot then
        ⟨engine.finish.loseCard.requireRecovery, engine.cancelPending (.io .connectionLost)⟩
      else ⟨engine, []⟩
    | .error _ => ⟨engine, []⟩
  else
    match decodeInterruptSlotChange rawBytes engine.maxSlotIndex with
    | .ok notification =>
      engine.slotChanged (notification.isCardPresent engine.bSlot)
        (notification.hasSlotChanged engine.bSlot)
    | .error _ => ⟨engine, []⟩

end Interrupt

section BulkOut
variable (engine : CcidEngine)

def bulkOutCompleted (transferred : Nat) : Outcome :=
  if transferred ≠ engine.expectedBulkOutLen then
    match engine.pendingOp with
    | some (id, _) =>
      ⟨engine.finish.requireRecovery, [.cancelTransfers,
          .complete id (.error (.io (.shortWrite engine.expectedBulkOutLen transferred)))]⟩
    | none => ⟨engine, []⟩
  else ⟨engine, [engine.submitBulkIn]⟩

def controlCompleted : Outcome :=
  match engine.pendingOp with
  | some (_, .abort) =>
    let encoded := encodeAbort engine.bSlot engine.expectedSeq
    ⟨engine.expectBulkOut encoded.length, [.submitBulkOut engine.expectedSeq encoded]⟩
  | _ => ⟨engine, []⟩

end BulkOut

section BulkIn
variable (engine : CcidEngine)

def extendTime (now : MonotonicTime) (id : OperationId) (multiplier : UInt8) : Outcome :=
  let extendedUntil := min (now + multiplier.toNat * engine.waitingUnitMs) (2 ^ 64 - 1)
  if maxTimeExtensions < engine.countExtension.wtxCount ∨
      maxTimeExtensionWallMs < extendedUntil - engine.opStartedAt then
    ⟨engine.countExtension.finish.requireRecovery,
      [.cancelTransfers, .complete id (.error .timeout)]⟩
  else ⟨engine.countExtension.armDeadline extendedUntil, [engine.submitBulkIn]⟩

/-- Another message for the pending operation, under the next sequence
number. -/
def sendBlock (bWi : UInt8) (wLevelParameter : UInt16) (block : Bytes) : Outcome :=
  let cmd := encodeXfrBlock engine.bSlot engine.nextSeq bWi wLevelParameter block
  ⟨engine.allocateSeq.expectBulkOut cmd.length, [.submitBulkOut engine.nextSeq cmd]⟩

variable (id : OperationId)

/-- A block of a response that more blocks follow is kept, and the next one
asked for. -/
def keepBlock (payload : Bytes) : Outcome :=
  if maxResponsePayloadSize < engine.chainBuffer.length + payload.length then
    ⟨engine.clearChain.finish, [.complete id (.error .responseLengthOutOfRange)]⟩
  else
    (engine.appendChain payload).sendBlock 0 chainCommandContinuationExpected.toUInt16 []

variable (kind : PendingOperation)

def dataResult (data : Bytes) : OperationResult :=
  match kind with
  | .transferBlock => .transferBlock data
  | .secure => .secure data
  | _ => .powerOn data

/-- The operation is answered by the whole of a response. -/
def answerData (data : Bytes) : Outcome :=
  let after := if kind = .powerOn then engine.finish.activate else engine.finish
  ⟨after, [.complete id (.ok (dataResult kind data))]⟩

def chainDesync (reason : CcidProtocolDesync) : Outcome :=
  ⟨engine.finish.requireRecovery, [.complete id (.error (.protocolDesync reason))]⟩

def dataBlock (now : MonotonicTime) (id : OperationId) (kind : PendingOperation)
    (chainParameter : ChainParameter) (payload : Bytes) : Outcome :=
  match chainParameter with
  | .begin =>
    if engine.chainBuffer ≠ [] then engine.clearChain.chainDesync id .chainBeginAlreadyOpen
    else engine.keepBlock id payload
  | .continue =>
    if engine.chainBuffer = [] then engine.chainDesync id .chainContinueWithoutBegin
    else engine.keepBlock id payload
  | .finish =>
    if engine.chainBuffer = [] then engine.chainDesync id .chainEndWithoutBegin
    else if maxResponsePayloadSize < engine.chainBuffer.length + payload.length then
      ⟨engine.clearChain.finish, [.complete id (.error .responseLengthOutOfRange)]⟩
    else engine.clearChain.answerData id kind (engine.chainBuffer ++ payload)
  | .complete =>
    if engine.chainBuffer ≠ [] then engine.clearChain.chainDesync id .chainCompleteWhileOpen
    else if maxResponsePayloadSize < payload.length then
      ⟨engine.finish, [.complete id (.error .responseLengthOutOfRange)]⟩
    else engine.answerData id kind payload
  | .commandContinuationExpected =>
    match engine.outgoingChain with
    | nextChunk :: rest =>
      let wLevel := if rest = [] then wLevelEnd else wLevelContinue
      let sent := (engine.setOutgoing rest).sendBlock engine.pendingBWi wLevel nextChunk
      ⟨sent.engine.armDeadline (now + engine.defaultTimeoutMs), sent.actions⟩
    | [] =>
      ⟨engine.finish, [.complete id (.error (.protocolDesync .unexpectedCommandContinuation))]⟩

/-- The state after a slot status, which ends the operation. -/
def noteSlotStatus (present : Bool) : CcidEngine :=
  if !present && engine.cardPresent then engine.finish.loseCard
  else { engine.finish with cardPresent := present }

def slotStatus (id : OperationId) (kind : PendingOperation) (present : Bool) : Outcome :=
  let noted := engine.noteSlotStatus present
  match kind with
  | .powerOff => ⟨noted.deactivate, [.complete id (.ok .powerOff)]⟩
  | .abort => ⟨{ noted with needsRecovery := false }, [.complete id (.ok .aborted)]⟩
  | _ => ⟨noted, [.complete id (.ok (.slotStatus present))]⟩

/-- The state after a reply that tells whether the card is still there. -/
def noteStatus (cardStatus : CardStatus) : CcidEngine :=
  if cardStatus = .notPresent then engine.finish.loseCard else engine.finish

def parametersResult (payload : Bytes) : OperationResult :=
  match kind with
  | .setParametersT0 => .parametersSet
  | _ => .parameters payload

/-- A frame that is no reply to the operation. While an abort drains the
reader a few are skipped. -/
def undecodable (error : CcidError) : Outcome :=
  if kind = .abort ∧ engine.abortDrainCount < maxAbortDrainAttempts then
    ⟨engine.countDrain, [engine.submitBulkIn]⟩
  else ⟨engine.finish.requireRecovery, [.complete id (.error error)]⟩

def bulkInCompleted (now : MonotonicTime) (frame : Bytes) : Outcome :=
  match engine.pendingOp with
  | none => ⟨engine, []⟩
  | some (id, kind) =>
    match decodeResponse frame engine.expectedResponseType engine.bSlot engine.expectedSeq with
    | .ok (.timeExtension _ multiplier) => engine.extendTime now id multiplier
    | .ok (.dataBlock cardStatus chainParameter payload) =>
      if cardStatus = .notPresent then
        ⟨engine.finish.loseCard, [.complete id (.error .cardRemoved)]⟩
      else engine.dataBlock now id kind chainParameter payload
    | .ok (.slotStatus cardStatus _) => engine.slotStatus id kind cardStatus.isPresent
    | .ok (.parameters cardStatus _ payload) =>
      ⟨engine.noteStatus cardStatus, [.complete id (.ok (parametersResult kind payload))]⟩
    | .ok (.commandFailure cardStatus errorCode) =>
      ⟨engine.noteStatus cardStatus, [.complete id (.error (.commandFailed errorCode))]⟩
    | .error error => engine.undecodable id kind error

end BulkIn

section Endings
variable (engine : CcidEngine)

def failureCompleted (error : CcidError) : Outcome :=
  match engine.pendingOp with
  | none => ⟨engine.clearOutgoing, []⟩
  | some (id, _) =>
    let ended := match error with
      | .cardRemoved => engine.clearOutgoing.finish.loseCard
      | .timeout | .io _ => engine.clearOutgoing.finish.requireRecovery
      | _ => engine.clearOutgoing.finish
    ⟨ended, [.cancelTransfers, .complete id (.error error)]⟩

def deadlineExpired (now : MonotonicTime) (expired : DeadlineId) : Outcome :=
  match engine.currentDeadline, engine.pendingOp with
  | some deadline, some (id, _) =>
    if deadline.id = expired ∧ deadline.expiresAt ≤ now then
      ⟨engine.clearOutgoing.finish.requireRecovery,
        [.cancelTransfers, .complete id (.error .timeout)]⟩
    else ⟨engine, []⟩
  | _, _ => ⟨engine, []⟩

def cancel (cancelled : OperationId) : Outcome :=
  match engine.pendingOp with
  | some (id, _) =>
    if id = cancelled then
      ⟨engine.clearOutgoing.finish.requireRecovery,
        [.cancelTransfers, .complete id (.error .cancelled)]⟩
    else ⟨engine, []⟩
  | none => ⟨engine, []⟩

def connectionLost : Outcome :=
  let lost := engine.clearOutgoing.finish.disconnect
  match engine.pendingOp with
  | some (id, _) => ⟨lost, [.complete id (.error (.io .deviceDisconnected))]⟩
  | none => ⟨lost, []⟩

end Endings

def handle (engine : CcidEngine) (now : MonotonicTime) : InputEvent → Outcome
  | .start .. => ⟨engine, []⟩
  | .ioCompleted (.bulkOut transferred) => engine.bulkOutCompleted transferred
  | .ioCompleted .control => engine.controlCompleted
  | .ioCompleted (.bulkIn frame) => engine.bulkInCompleted now frame
  | .ioCompleted (.failure error) => engine.failureCompleted error
  | .interruptReceived rawBytes => engine.interruptReceived rawBytes
  | .deadlineExpired id => engine.deadlineExpired now id
  | .cancel id => engine.cancel id
  | .connectionLost => engine.connectionLost

/-- `CcidEngine::step`. A handler that arms a deadline returns the deadline it
armed, which is then the current one; the others return the current one while
an operation is pending. -/
def step (engine : CcidEngine) (now : MonotonicTime) (event : InputEvent) :
    Transition × CcidEngine :=
  match event with
  | .start id op => engine.start now id op
  | event =>
    let outcome := engine.handle now event
    (⟨outcome.actions,
      if outcome.engine.pendingOp.isSome then outcome.engine.currentDeadline else none⟩,
      outcome.engine)

end CcidEngine

end RefineId.Ccid
