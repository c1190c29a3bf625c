import RefineId.Data.Words

/-! Bulk and interrupt messages of a USB smart card reader
(`crates/ccid/src/codec.rs`), the errors of the reader's protocol
(`error.rs`) and the exchange levels of its descriptor (`descriptor.rs`). -/
namespace RefineId.Ccid

open Data

inductive CcidIoError where
  | connectionLost
  | deviceDisconnected
  | shortWrite (expected transferred : Nat)
  | bulkInUnderflow
  | syntheticFailure
  deriving DecidableEq

inductive CcidProtocolDesync where
  | slotRecoveryRequired
  | operationAlreadyPending
  | invalidParametersLength (protocol : UInt8) (length : Nat)
  | chainBeginAlreadyOpen
  | chainContinueWithoutBegin
  | chainEndWithoutBegin
  | chainCompleteWhileOpen
  | unexpectedCommandContinuation
  | powerOnMissingAtr
  | resetMissingAtr
  | unexpectedAbortOutcome
  | terminatedWithoutCompletion
  | chainingIterationLimitExceeded
  | chainExceededCapacity
  | stalledChain
  | repeatedWrongLe
  deriving DecidableEq

inductive AtrError where
  | tooShort (got : Nat)
  | tooLong (got : Nat)
  | invalidConvention (got : UInt8)
  | truncatedAtInterfaceBytes
  | truncatedAtHistoricalBytes
  | missingTck
  | tckMismatch (expected got : UInt8)
  | trailingBytes (expectedEnd got : Nat)
  deriving DecidableEq

inductive CcidError where
  | truncatedDescriptorHeader
  | invalidDescriptorLength
  | truncatedDescriptor
  | invalidInterfaceDescriptor
  | missingCcidDescriptor
  | ccidDescriptorTooShort
  | unsupportedExchangeLevel
  | invalidExchangeLevel
  | invalidApduConfiguration
  | messageLengthOutOfRange
  | transferMessageBoundTooSmall
  | truncatedHeader
  | responseLengthOutOfRange
  | lengthMismatch
  | unexpectedMessageType (expected actual : UInt8)
  | unexpectedSlot (expected actual : UInt8)
  | unexpectedSequence (expected actual : UInt8)
  | reservedStatusBits
  | reservedCardStatus
  | reservedCommandStatus
  | unexpectedPayload
  | invalidClockStatus
  | invalidChainParameter
  | commandFailed (errorCode : Int8)
  | timeExtension (multiplier : UInt8)
  | io (error : CcidIoError)
  | protocolDesync (reason : CcidProtocolDesync)
  | timeout
  | cancelled
  | cardRemoved
  | invalidCcidDescriptor (actual : UInt8)
  | apduTooLong
  | unsupportedProtocol
  | atr (error : AtrError)
  deriving DecidableEq

inductive CcidExchangeLevel where
  | character
  | tpdu
  | shortApdu
  | shortAndExtendedApdu
  deriving DecidableEq

def ccidHeaderSize : Nat := 10
def maxResponsePayloadSize : Nat := 65538

def pcToRdrSetParameters : UInt8 := 0x61
def pcToRdrIccPowerOn : UInt8 := 0x62
def pcToRdrIccPowerOff : UInt8 := 0x63
def pcToRdrGetSlotStatus : UInt8 := 0x65
def pcToRdrAbort : UInt8 := 0x72
def pcToRdrGetParameters : UInt8 := 0x6C
def pcToRdrXfrBlock : UInt8 := 0x6F
def pcToRdrSecure : UInt8 := 0x69
def ccidControlRequestType : UInt8 := 0x21
def ccidControlRequestAbort : UInt8 := 0x01

def rdrToPcDataBlock : UInt8 := 0x80
def rdrToPcSlotStatus : UInt8 := 0x81
def rdrToPcParameters : UInt8 := 0x82
def rdrToPcNotifySlotChange : UInt8 := 0x50
def rdrToPcHardwareError : UInt8 := 0x51

def commandStatusShift : UInt8 := 6
def reservedStatusMask : UInt8 := 0x3C
def fieldMask : UInt8 := 0x03
def chainCommandContinuationExpected : UInt8 := 0x10
def t0ParameterLength : Nat := 5
def t0InverseConvention : UInt8 := 0x02

inductive CardStatus where
  | active
  | inactive
  | notPresent
  deriving DecidableEq

def CardStatus.isPresent : CardStatus → Bool
  | active | inactive => true
  | notPresent => false

inductive ClockStatus where
  | running
  | stoppedLow
  | stoppedHigh
  | stoppedUnknown
  deriving DecidableEq

inductive ChainParameter where
  | complete
  | begin
  | finish
  | continue
  | commandContinuationExpected
  deriving DecidableEq

inductive CcidResponse where
  | dataBlock (cardStatus : CardStatus) (chainParameter : ChainParameter) (payload : Bytes)
  | slotStatus (cardStatus : CardStatus) (clockStatus : ClockStatus)
  | parameters (cardStatus : CardStatus) (protocolNum : UInt8) (payload : Bytes)
  | commandFailure (cardStatus : CardStatus) (errorCode : Int8)
  | timeExtension (cardStatus : CardStatus) (multiplier : UInt8)
  deriving DecidableEq

/-- A message of ten bytes: type, empty payload, slot, sequence number and
one parameter. -/
def headerMessage (messageType slot seq parameter : UInt8) : Bytes :=
  [messageType, 0, 0, 0, 0, slot, seq, parameter, 0, 0]

def encodeIccPowerOn (slot seq voltageSelection : UInt8) : Bytes :=
  headerMessage pcToRdrIccPowerOn slot seq voltageSelection

variable (slot seq : UInt8)

def encodeIccPowerOff : Bytes :=
  headerMessage pcToRdrIccPowerOff slot seq 0

def encodeGetSlotStatus : Bytes :=
  headerMessage pcToRdrGetSlotStatus slot seq 0

def encodeGetParameters : Bytes :=
  headerMessage pcToRdrGetParameters slot seq 0

def encodeAbort : Bytes :=
  headerMessage pcToRdrAbort slot seq 0

/-- A message with a payload. A length beyond 32 bits is written as the
largest one. -/
def payloadMessage (messageType slot seq bWi : UInt8) (wLevelParameter : UInt16) (block : Bytes) :
    Bytes :=
  [messageType] ++ leBytes 4 (min block.length (2 ^ 32 - 1)) ++ [slot, seq, bWi] ++
    leBytes 2 wLevelParameter.toNat ++ block

def encodeXfrBlock (slot seq bWi : UInt8) (wLevelParameter : UInt16) (block : Bytes) : Bytes :=
  payloadMessage pcToRdrXfrBlock slot seq bWi wLevelParameter block

def encodeSecure (slot seq bWi : UInt8) (wLevelParameter : UInt16) (data : Bytes) : Bytes :=
  payloadMessage pcToRdrSecure slot seq bWi wLevelParameter data

def encodeSetParametersT0 (slot seq fiDi guardTime waitingInteger clockStop : UInt8)
    (inverseConvention : Bool) : Bytes :=
  [pcToRdrSetParameters] ++ leBytes 4 t0ParameterLength ++ [slot, seq, 0, 0, 0] ++
    [fiDi, if inverseConvention then t0InverseConvention else 0, guardTime, waitingInteger,
      clockStop]

theorem payloadMessage_drop (messageType slot seq bWi : UInt8) (wLevelParameter : UInt16)
    (block : Bytes) :
    (payloadMessage messageType slot seq bWi wLevelParameter block).drop ccidHeaderSize = block := by
  have hHeader : ([messageType] ++ leBytes 4 (min block.length (2 ^ 32 - 1)) ++ [slot, seq, bWi] ++
      leBytes 2 wLevelParameter.toNat).length = ccidHeaderSize := by
    simp only [leBytes, List.length_append, List.length_reverse, beBytes_length,
      List.length_cons, List.length_nil, ccidHeaderSize]
  rw [payloadMessage, ← hHeader, List.drop_left]

def cardStatusOf (field : UInt8) : Option CardStatus :=
  if field = 0 then some .active
  else if field = 1 then some .inactive
  else if field = 2 then some .notPresent
  else none

def clockStatusOf (parameter : UInt8) : Option ClockStatus :=
  if parameter = 0 then some .running
  else if parameter = 1 then some .stoppedLow
  else if parameter = 2 then some .stoppedHigh
  else if parameter = 3 then some .stoppedUnknown
  else none

def chainParameterOf (parameter : UInt8) : Option ChainParameter :=
  if parameter = 0 then some .complete
  else if parameter = 1 then some .begin
  else if parameter = 2 then some .finish
  else if parameter = 3 then some .continue
  else if parameter = chainCommandContinuationExpected then some .commandContinuationExpected
  else none

/-- A reply to a command that succeeded, by the type of message awaited. -/
def decodeSucceeded (expectedMsgType : UInt8) (cardStatus : CardStatus) (parameter : UInt8)
    (payload : Bytes) : Except CcidError CcidResponse :=
  if expectedMsgType = rdrToPcSlotStatus then
    match clockStatusOf parameter with
    | some clockStatus => .ok (.slotStatus cardStatus clockStatus)
    | none => .error .invalidClockStatus
  else if expectedMsgType = rdrToPcDataBlock then
    match chainParameterOf parameter with
    | some chainParameter => .ok (.dataBlock cardStatus chainParameter payload)
    | none => .error .invalidChainParameter
  else if expectedMsgType = rdrToPcParameters then
    if (parameter = 0 ∧ payload.length = 5) ∨ (parameter = 1 ∧ payload.length = 7) then
      .ok (.parameters cardStatus parameter payload)
    else
      .error (.protocolDesync (.invalidParametersLength parameter payload.length))
  else
    .error (.unexpectedMessageType expectedMsgType expectedMsgType)

variable (frame : Bytes)

/-- A reply frame against the message type, slot and sequence number it must
carry. -/
def decodeResponse (expectedMsgType expectedSlot expectedSeq : UInt8) :
    Except CcidError CcidResponse :=
  match frame with
  | msgType :: l0 :: l1 :: l2 :: l3 :: slot :: seq :: status :: errorByte :: parameter :: payload =>
      let declaredLength := beValue [l3, l2, l1, l0]
      if maxResponsePayloadSize < declaredLength then .error .responseLengthOutOfRange
      else if frame.length ≠ ccidHeaderSize + declaredLength then .error .lengthMismatch
      else if msgType ≠ expectedMsgType then
        .error (.unexpectedMessageType expectedMsgType msgType)
      else if slot ≠ expectedSlot then .error (.unexpectedSlot expectedSlot slot)
      else if seq ≠ expectedSeq then .error (.unexpectedSequence expectedSeq seq)
      else if expectedMsgType = rdrToPcSlotStatus ∧ declaredLength ≠ 0 then
        .error .unexpectedPayload
      else if status &&& reservedStatusMask ≠ 0 then .error .reservedStatusBits
      else
        match cardStatusOf (status &&& fieldMask) with
        | none => .error .reservedCardStatus
        | some cardStatus =>
          let commandStatus := (status >>> commandStatusShift) &&& fieldMask
          if commandStatus = 0 then decodeSucceeded expectedMsgType cardStatus parameter payload
          else if commandStatus = 1 then .ok (.commandFailure cardStatus errorByte.toInt8)
          else if commandStatus = 2 then .ok (.timeExtension cardStatus errorByte)
          else .error .reservedCommandStatus
  | _ => .error .truncatedHeader

structure SlotChangeNotification where
  slotPresence : List Bool
  slotChanged : List Bool
  deriving DecidableEq

variable (notification : SlotChangeNotification)

def SlotChangeNotification.isCardPresent (slot : UInt8) : Bool :=
  (notification.slotPresence[slot.toNat]?).getD false

def SlotChangeNotification.hasSlotChanged (slot : UInt8) : Bool :=
  (notification.slotChanged[slot.toNat]?).getD false

/-- One of the two bits a notification holds for each slot, four slots to a
byte after the message type. -/
def slotBit (slotIdx extra : Nat) : Bool :=
  let byteVal := (frame[1 + slotIdx / 4]?).getD 0
  (byteVal >>> UInt8.ofNat (slotIdx % 4 * 2 + extra)) &&& 0x01 ≠ 0

def decodeInterruptSlotChange (maxSlotIndex : UInt8) : Except CcidError SlotChangeNotification :=
  match frame with
  | [] => .error .truncatedHeader
  | messageType :: _ =>
    if messageType ≠ rdrToPcNotifySlotChange then
      .error (.unexpectedMessageType rdrToPcNotifySlotChange messageType)
    else
      let slotCount := maxSlotIndex.toNat + 1
      if frame.length < 1 + (slotCount + 3) / 4 then .error .lengthMismatch
      else
        .ok ⟨(List.range slotCount).map (slotBit frame · 0),
          (List.range slotCount).map (slotBit frame · 1)⟩

structure HardwareErrorNotification where
  slot : UInt8
  seq : UInt8
  hardwareErrorCode : UInt8
  deriving DecidableEq

def decodeInterruptHardwareError : Except CcidError HardwareErrorNotification :=
  match frame with
  | [] => .error .truncatedHeader
  | messageType :: rest =>
    if messageType ≠ rdrToPcHardwareError then
      .error (.unexpectedMessageType rdrToPcHardwareError messageType)
    else
      match rest with
      | slot :: seq :: hardwareErrorCode :: _ => .ok ⟨slot, seq, hardwareErrorCode⟩
      | _ => .error .lengthMismatch

end RefineId.Ccid
