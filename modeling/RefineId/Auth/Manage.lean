import RefineId.Auth.Verify
import RefineId.Semantics.Dialogue

/-! Unblocking a PIN and activating a card (`crates/auth/src/manage.rs`,
`activation.rs`), with the credential commands they send (`verify.rs`). A
program is what it asks of the card. -/
namespace RefineId.Auth

open Data Apdu Semantics

variable {E : Type}

inductive CardRequest where
  | transmit (command : CommandApdu)
  | transmitCredential (command : CredentialCommand)

/-- Programs that talk to a card over a link with its own errors. -/
abbrev CardProgram (E : Type) : Type → Type :=
  Dialogue.Failing (AuthError E) CardRequest (Except E TransportOutcome)

/-- The response of an exchange. Anything else ends the operation. -/
def intoResponse : Except E TransportOutcome → Except (AuthError E) ResponseApdu
  | .error error => .error (.transport error)
  | .ok (.response response) => .ok response
  | .ok outcome => .error (.outcome outcome)

def exchange (request : CardRequest) : CardProgram E ResponseApdu :=
  ExceptT.mk (.ask request fun reply => .done (intoResponse reply))

def require {ε α : Type} (wrap : ε → AuthError E) (check : Except ε α) : CardProgram E α :=
  ExceptT.mk (pure (check.mapError wrap))

def verifyIns : UInt8 := 0x20
def verifyP1 : UInt8 := 0x00
def changeReferenceDataIns : UInt8 := 0x24
def changeP1CurrentThenNew : UInt8 := 0x00
def resetRetryCounterIns : UInt8 := 0x2C
def resetP1CodeThenNew : UInt8 := 0x00
def resetP1NewOnly : UInt8 := 0x02

def pinStoredLength : Nat := 12
def pinPadByte : UInt8 := 0x00

variable (scheme : PinReferenceScheme)

/-- One group of digits as the card compares it: padded to the stored length,
or bare under the organizational numbering. -/
def credentialBlock (group : Bytes) : Bytes :=
  let copied := group.take pinStoredLength
  match scheme with
  | .citizen => copied ++ List.replicate (pinStoredLength - copied.length) pinPadByte
  | .organizational => copied

/-- The blocks of at most two groups in a buffer of pad bytes, and their length. -/
def writeCredentialBlocks (groups : List Bytes) : FixedBytes credentialBodyMax × Nat :=
  let blocks := groups.flatMap (credentialBlock scheme)
  (⟨(blocks ++ List.replicate credentialBodyMax pinPadByte).take credentialBodyMax,
    by simp⟩, blocks.length)

def credentialExchange (header : CommandHeader)
    (groups : List Bytes) : CardProgram E StatusWord := do
  let (block, total) := writeCredentialBlocks scheme groups
  let body ← require .command (CredentialBody.fromBlock block total)
  let response ← exchange (.transmitCredential (CredentialCommand.assemble header body))
  return response.statusWord

/-- The counter-safe probe: a VERIFY without data. -/
def statusProbe (reference : UInt8) : CommandApdu :=
  .case1 ⟨.plain, verifyIns, verifyP1, reference⟩

variable (slot : PinSlot)

def probeStatusWord : CardProgram E StatusWord := do
  let response ← exchange (.transmit (statusProbe (scheme.reference slot)))
  return response.statusWord

def pinStatusWithScheme : CardProgram E PinStatus := do
  return classifyPinStatusSw (← probeStatusWord scheme slot)

inductive ActivationScheme where
  | activationCodeIsPuk
  | presetActivationPin
  deriving DecidableEq

def ActivationScheme.activationEntryDigitCount : ActivationScheme → Nat
  | activationCodeIsPuk => 8
  | presetActivationPin => 7

/-- Digits of exactly the length its scheme asks for. -/
structure ActivationCode where
  scheme : ActivationScheme
  secret : SecretDigits scheme.activationEntryDigitCount scheme.activationEntryDigitCount

def ActivationCode.digits (code : ActivationCode) : Bytes :=
  code.secret.secretBytes

inductive PinChangeRecord where
  | changed
  | unchanged
  | unreadable
  deriving DecidableEq

def pinAwaitsActivation (scheme : ActivationScheme) (record : PinChangeRecord)
    (status : PinStatus) : Bool :=
  match record with
  | .unchanged => true
  | .changed => false
  | .unreadable =>
    match scheme with
    | .presetActivationPin => false
    | .activationCodeIsPuk =>
      match status with
      | .locked => true
      | .remaining retries => retries.isExhausted
      | .verified | .noInfo | .other _ => false

def pinContainerQuery (reference : UInt8) : Option CommandApdu :=
  (CommandApdu.case4 ⟨.plain, 0xCB, 0x00, 0xFF⟩ [0xA0, 3, 0x83, 1, reference] 0x00).toOption

/-- The flag in a window that starts with the tag and length of the change
record. -/
def changedFlag : Bytes → Option UInt8
  | high :: low :: length :: flag :: _ =>
    if high = 0xDF ∧ low = 0x2F ∧ length = 1 then some flag else none
  | _ => none

/-- The tries in a window that starts with the tag and length of the PIN
attributes, when they are a count of tries. -/
def attributeTries : Bytes → Option PinRetries
  | high :: low :: length :: tries :: _ :: _ :: _ :: _ =>
    if high = 0xDF ∧ low = 0x21 ∧ length = 4 then PinRetries.fromNibble tries else none
  | _ => none

def pinChangeRecordOf (response : ResponseApdu) : PinChangeRecord :=
  if response.statusWord = .success then
    match response.body.tails.findSome? changedFlag with
    | some flag => if flag = 0x00 then .unchanged else if flag = 0x01 then .changed else .unreadable
    | none => .unreadable
  else .unreadable

def pukStatusOf (response : ResponseApdu) : PinStatus :=
  match response.statusWord with
  | .success =>
    match response.body.tails.findSome? attributeTries with
    | some retries => .remaining retries
    | none => .noInfo
  | .authenticationBlocked | .referenceDataInvalidated => .locked
  | other => .other other

/-- The container is asked for under the citizen references, whatever the
numbering. -/
def readPinChangeRecord : CardProgram E PinChangeRecord :=
  match pinContainerQuery (PinReferenceScheme.citizen.reference slot) with
  | none => pure .unreadable
  | some query => pinChangeRecordOf <$> exchange (.transmit query)

def readPukStatusFromContainer : CardProgram E PinStatus :=
  match pinContainerQuery PinReferenceScheme.citizen.pukReference with
  | none => pure .noInfo
  | some query => pukStatusOf <$> exchange (.transmit query)

inductive ManageOutcome where
  | ok
  | wrongCredential (retriesLeft : PinRetries)
  | locked
  | other (sw : StatusWord)
  deriving DecidableEq

def classifyManageSw : StatusWord → ManageOutcome
  | .success => .ok
  | .pinIncorrect retries => .wrongCredential retries
  | .authenticationBlocked | .referenceDataInvalidated => .locked
  | other => .other other

def change (current new : Bytes) : CardProgram E ManageOutcome :=
  classifyManageSw <$> credentialExchange scheme
    ⟨.plain, changeReferenceDataIns, changeP1CurrentThenNew, scheme.reference slot⟩ [current, new]

/-- What the probe tells, or the container where a citizen card's probe tells
neither a counter nor a block. -/
def pukStatusOrContainer : PinReferenceScheme → PinStatus → CardProgram E PinStatus
  | .citizen, .remaining retries => pure (.remaining retries)
  | .citizen, .locked => pure .locked
  | .citizen, _ => readPukStatusFromContainer
  | .organizational, status => pure status

def pukStatus : CardProgram E PinStatus := do
  let response ← exchange (.transmit (statusProbe scheme.pukReference))
  pukStatusOrContainer scheme (classifyPinStatusSw response.statusWord)

def verifyPuk (puk : Bytes) : CardProgram E ManageOutcome :=
  classifyManageSw <$> credentialExchange scheme
    ⟨.plain, verifyIns, verifyP1, scheme.pukReference⟩ [puk]

def resetNewOnly (new : Bytes) : CardProgram E ManageOutcome :=
  classifyManageSw <$> credentialExchange scheme
    ⟨.plain, resetRetryCounterIns, resetP1NewOnly, scheme.reference slot⟩ [new]

def resetCodeThenNew (puk new : Bytes) : CardProgram E ManageOutcome :=
  classifyManageSw <$> credentialExchange scheme
    ⟨.plain, resetRetryCounterIns, resetP1CodeThenNew, scheme.reference slot⟩ [puk, new]

def unblock (puk new : Bytes) : CardProgram E ManageOutcome := do
  let pukCounter ← pukStatus scheme
  require .retryFloor (checkRetryFloor .puk pukCounter)
  match scheme with
  | .citizen => resetCodeThenNew scheme slot puk new
  | .organizational => do
      let verified ← verifyPuk scheme puk
      if verified = .ok then resetNewOnly scheme slot new else return verified

structure ActivationReading where
  needsPin1 : Bool
  needsPin2 : Bool
  pin1 : PinStatus
  pin2 : PinStatus

/-- The changed flag and the counter-safe status of one PIN. -/
def readSlot (scheme : ActivationScheme) (numbering : PinReferenceScheme) (slot : PinSlot) :
    CardProgram E (Bool × PinStatus) := do
  let record ← readPinChangeRecord slot
  let status ← pinStatusWithScheme numbering slot
  return (pinAwaitsActivation scheme record status, status)

def readActivation (scheme : ActivationScheme) (numbering : PinReferenceScheme) :
    CardProgram E ActivationReading := do
  let (needsPin1, pin1) ← readSlot scheme numbering .pin1
  let (needsPin2, pin2) ← readSlot scheme numbering .pin2
  return ⟨needsPin1, needsPin2, pin1, pin2⟩

structure ActivationReport where
  scheme : ActivationScheme
  pin1 : Option ManageOutcome
  pin2 : Option ManageOutcome
  deriving DecidableEq

/-- What the activation entry stands for. -/
def presentedAs (scheme : ActivationScheme) (slot : PinSlot) : Option PinSlot :=
  match scheme with
  | .presetActivationPin => some slot
  | .activationCodeIsPuk => none

variable (lengths : CardPinLengths)

def checkEntryLengths (code : ActivationCode) (newPin1 : Option Pin1)
    (newPin2 : Option Pin2) : Except PinLengthRefusal Unit := do
  match newPin1 with
  | some pin =>
    lengths.checkActivationEntry (presentedAs code.scheme .pin1) code.digits.length
    lengths.checkPin1 pin
  | none => pure ()
  match newPin2 with
  | some pin =>
    lengths.checkActivationEntry (presentedAs code.scheme .pin2) code.digits.length
    lengths.checkPin2 pin
  | none => pure ()

/-- The floor of each PIN about to be changed, before the first change. -/
def checkActivationTries (scheme : ActivationScheme) (reading : ActivationReading)
    (changesPin1 changesPin2 : Bool) : Except RetryFloorRefusal Unit :=
  match scheme with
  | .presetActivationPin =>
    (if changesPin1 then checkLastTries .pin1 reading.pin1 else .ok ()) >>= fun _ =>
      if changesPin2 then checkLastTries .pin2 reading.pin2 else .ok ()
  | .activationCodeIsPuk => .ok ()

/-- Activate one PIN, if it awaits activation and a new value was given. -/
def activateSlot (numbering : PinReferenceScheme) (code : ActivationCode) (slot : PinSlot)
    (awaits : Bool) (fresh : Option Bytes) : CardProgram E (Option ManageOutcome) :=
  match awaits, fresh with
  | true, some digits =>
    some <$> match code.scheme with
      | .presetActivationPin => change numbering slot code.digits digits
      | .activationCodeIsPuk => unblock numbering slot code.digits digits
  | _, _ => pure none

def activateCard (code : ActivationCode) (newPin1 : Option Pin1)
    (newPin2 : Option Pin2) : CardProgram E ActivationReport := do
  require .pinLength (checkEntryLengths lengths code newPin1 newPin2)
  let reading ← readActivation code.scheme lengths.numbering
  require .retryFloor (checkActivationTries code.scheme reading
    (reading.needsPin1 && newPin1.isSome) (reading.needsPin2 && newPin2.isSome))
  let pin1 ← activateSlot lengths.numbering code .pin1 reading.needsPin1 (newPin1.map Pin1.digits)
  if pin1 = none ∨ pin1 = some .ok then
    let pin2 ← activateSlot lengths.numbering code .pin2 reading.needsPin2 (newPin2.map Pin2.digits)
    return ⟨code.scheme, pin1, pin2⟩
  else return ⟨code.scheme, pin1, none⟩

def unblockPin1 (puk : Puk) (new : Pin1) : CardProgram E ManageOutcome := do
  require .pinLength (lengths.checkPuk puk)
  require .pinLength (lengths.checkPin1 new)
  unblock lengths.numbering .pin1 puk.digits new.digits

def unblockPin2 (puk : Puk) (new : Pin2) : CardProgram E ManageOutcome := do
  require .pinLength (lengths.checkPuk puk)
  require .pinLength (lengths.checkPin2 new)
  unblock lengths.numbering .pin2 puk.digits new.digits

end RefineId.Auth
