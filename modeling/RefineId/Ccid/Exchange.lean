import RefineId.Ccid.ExecuteOp
import RefineId.Apdu.Command
import RefineId.Semantics.Dialogue

/-! One APDU over the reader (`run_exchange`, `transmit` and
`transmit_credential` of `crates/ccid/src/transport.rs`): the operations it
executes, and the blocks that each of them passes to the reader. -/
namespace RefineId.Ccid

open Data Semantics Apdu GetResponse

inductive CardProtocol where
  | t0
  | t1
  deriving DecidableEq

/-- An exchange asks for operations and goes on with their results. -/
abbrev Exchange := Dialogue Operation (Except CcidError OperationResult)
  (Except CcidError TransportOutcome)

def defaultBWi : UInt8 := 0
def defaultWLevelParameter : UInt16 := wLevelNone
def maxChainIterations : Nat := 256
def maxConsecutiveWrongLe : Nat := 2

def transfer (apdu : Bytes) : Operation :=
  .transferBlock defaultBWi defaultWLevelParameter apdu

section Exchange
variable (protocol : CardProtocol) (exchangeLevel : CcidExchangeLevel)

def takesTpdus : Bool :=
  exchangeLevel = .tpdu || exchangeLevel = .character

/-- The bytes of a command as the card's protocol and the reader take them. -/
def prepareCommandBytes (apdu : Bytes) : Except CcidError Bytes :=
  if takesTpdus exchangeLevel && protocol = .t1 then .error .unsupportedProtocol
  else if protocol = .t0 && takesTpdus exchangeLevel then
    match t0Case3FromShortCase4 apdu with
    | some case3 => .ok case3
    | none => .ok apdu
  else .ok apdu

def rawResponse : Except CcidError OperationResult →
    Except (Except CcidError TransportOutcome) Bytes
  | .ok (.transferBlock data) => .ok data
  | .ok _ => .error (.ok .protocolDesync)
  | .error .cardRemoved => .error (.ok .noCard)
  | .error .timeout => .error (.ok .timeoutUnknownState)
  | .error error => .error (.error error)

/-- The GET RESPONSE loop, with `iterations` of it left. -/
def settleChain : (iterations : Nat) → (combined : Bytes) → (nextLe : UInt8) →
    (consecutiveWrongLe : Nat) → Exchange
  | 0, _, _, _ => .done (.error (.protocolDesync .chainingIterationLimitExceeded))
  | iterations + 1, combined, nextLe, consecutiveWrongLe =>
    match prepareCommandBytes protocol exchangeLevel
        (GetResponse.intoApdu ⟨.plain, nextLe⟩).bytes with
    | .error error => .done (.error error)
    | .ok getRespBytes =>
      .ask (transfer getRespBytes) fun reply =>
        match rawResponse reply with
        | .error outcome => .done outcome
        | .ok raw =>
          match splitStatus raw with
          | none => .done (.ok .protocolDesync)
          | some chained =>
            if extendedResponseDataMaxBytes < combined.length + chained.body.length then
              .done (.error (.protocolDesync .chainExceededCapacity))
            else if chained.sw1 = sw1BytesAvailable then
              if chained.body = [] then .done (.error (.protocolDesync .stalledChain))
              else settleChain iterations (combined ++ chained.body) chained.sw2 0
            else if chained.sw1 = sw1WrongLe then
              if maxConsecutiveWrongLe < consecutiveWrongLe + 1 then
                .done (.error (.protocolDesync .repeatedWrongLe))
              else
                settleChain iterations (combined ++ chained.body) chained.sw2
                  (consecutiveWrongLe + 1)
            else
              .done (.ok (.response ⟨combined ++ chained.body, chained.sw1, chained.sw2⟩))

def runExchange (apduBytes : Bytes) : Exchange :=
  .ask (transfer apduBytes) fun reply =>
    match rawResponse reply with
    | .error outcome => .done outcome
    | .ok raw =>
      match splitStatus raw with
      | none => .done (.ok .protocolDesync)
      | some first =>
        if first.sw1 = sw1BytesAvailable then
          settleChain protocol exchangeLevel maxChainIterations first.body first.sw2 0
        else .done (.ok (.response first))

def wrongLeCorrection (command : CommandApdu) : Except CcidError TransportOutcome →
    Option CommandApdu
  | .ok (.response response) =>
    if response.sw1 = sw1WrongLe then command.correctedWrongLe response.sw2 else none
  | _ => none

/-- A command that may be sent again, corrected at most once. -/
def transmit (command : CommandApdu) : Exchange :=
  match prepareCommandBytes protocol exchangeLevel command.bytes with
  | .error error => .done (.error error)
  | .ok prepared => do
      let outcome ← runExchange protocol exchangeLevel prepared
      match wrongLeCorrection command outcome with
      | none => .done outcome
      | some corrected =>
        match prepareCommandBytes protocol exchangeLevel corrected.bytes with
        | .error error => .done (.error error)
        | .ok retryBytes => runExchange protocol exchangeLevel retryBytes

def transmitCredential (command : CredentialCommand) : Exchange :=
  match prepareCommandBytes protocol exchangeLevel command.wire with
  | .error error => .done (.error error)
  | .ok prepared => runExchange protocol exchangeLevel prepared

end Exchange

section Requests
variable {protocol : CardProtocol} {exchangeLevel : CcidExchangeLevel}

def IsGetResponse (op : Operation) : Prop :=
  ∃ le, op = transfer (GetResponse.intoApdu ⟨.plain, le⟩).bytes

/-- GET RESPONSE has no data field to adapt. -/
theorem prepare_getResponse {le prepared}
    (h : prepareCommandBytes protocol exchangeLevel (intoApdu ⟨.plain, le⟩).bytes =
      .ok prepared) : prepared = (intoApdu ⟨.plain, le⟩).bytes := by
  have hNone : t0Case3FromShortCase4 (intoApdu ⟨.plain, le⟩).bytes = none := by
    have hBytes : (intoApdu ⟨.plain, le⟩).bytes = [0x00, 0xC0, 0x00, 0x00, le] := rfl
    rw [hBytes]
    simp only [t0Case3FromShortCase4, List.getElem?_cons_succ, List.getElem?_cons_zero,
      List.length_cons, List.length_nil]
    split
    · rfl
    · rw [if_pos (by omega)]
  unfold prepareCommandBytes at h
  split at h
  · cases h
  split at h
  · rw [hNone] at h
    cases h
    rfl
  · cases h
    rfl

theorem settleChain_bounded (iterations : Nat) (combined : Bytes) (nextLe : UInt8)
    (consecutiveWrongLe : Nat) :
    (settleChain protocol exchangeLevel iterations combined nextLe consecutiveWrongLe).Bounded
      IsGetResponse iterations := by
  induction iterations generalizing combined nextLe consecutiveWrongLe with
  | zero => trivial
  | succ iterations ih =>
    unfold settleChain
    split
    · trivial
    rename_i getRespBytes hPrepared
    refine ⟨⟨nextLe, by rw [prepare_getResponse hPrepared]⟩, fun reply => ?_⟩
    dsimp only
    split
    · trivial
    split
    · trivial
    split
    · trivial
    split
    · split
      · trivial
      · exact ih _ _ _
    · split
      · split
        · trivial
        · exact ih _ _ _
      · trivial

theorem runExchange_eq_ask (apduBytes : Bytes) :
    ∃ next, runExchange protocol exchangeLevel apduBytes = .ask (transfer apduBytes) next ∧
      ∀ reply, (next reply).Bounded IsGetResponse maxChainIterations := by
  refine ⟨_, rfl, fun reply => ?_⟩
  split
  · trivial
  split
  · trivial
  split
  · exact settleChain_bounded _ _ _ _
  · trivial

/-- The command as it is passed to the reader keeps at least one byte of its
data field. -/
theorem prepare_credential {command : CredentialCommand} {prepared : Bytes}
    (h : prepareCommandBytes protocol exchangeLevel command.wire = .ok prepared) :
    (prepared = command.wire ∨ prepared = command.wire.dropLast) ∧ 6 ≤ prepared.length := by
  unfold prepareCommandBytes at h
  split at h
  · cases h
  split at h
  · split at h
    · rename_i case3 hCase3
      cases h
      obtain ⟨hBytes, hLength⟩ := t0Case3FromShortCase4_eq_some hCase3
      exact ⟨.inr hBytes, hLength⟩
    · cases h
      exact ⟨.inl rfl, command.shape⟩
  · cases h
    exact ⟨.inl rfl, command.shape⟩

theorem not_isGetResponse {bytes} (h : 6 ≤ bytes.length) : ¬IsGetResponse (transfer bytes) := by
  rintro ⟨le, hTransfer⟩
  have hBytes : bytes = (intoApdu ⟨.plain, le⟩).bytes := by
    injection hTransfer
  rw [hBytes] at h
  exact absurd h (by decide : ¬6 ≤ 5)

end Requests

end RefineId.Ccid
