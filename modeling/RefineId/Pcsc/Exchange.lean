import RefineId.Apdu.Command
import RefineId.Semantics.Dialogue

/-! One APDU over PC/SC (`run_t0_exchange`, `exchange_plain` and
`exchange_credential` of `crates/pcsc/src/lib.rs`), over any transmitter and
any errors of the PC/SC library. -/
namespace RefineId.Pcsc

open Data Semantics Apdu

inductive Protocol where
  | t0
  | t1
  | raw
  deriving DecidableEq

variable {LibraryError : Type}

/-- Errors of the PC/SC library. The one for a reply that does not fit is known. -/
inductive LibraryFailure (LibraryError : Type) where
  | insufficientBuffer
  | other (error : LibraryError)

inductive PcscError (LibraryError : Type) where
  | pcsc (error : LibraryFailure LibraryError)
  | transport (reason : String)
  | credentialOutsideTransaction
  | notAPinSession

/-- The end of an exchange by one transmission. -/
inductive TransmitBreak (LibraryError : Type) where
  | outcome (ending : TransportOutcome)
  | error (reason : PcscError LibraryError)

/-- A program that transmits APDUs and goes on with their raw responses. -/
abbrev Transmission (LibraryError : Type) : Type → Type :=
  Dialogue Bytes (Except (TransmitBreak LibraryError) Bytes)

abbrev Exchange (LibraryError : Type) :=
  Transmission LibraryError (Except (PcscError LibraryError) TransportOutcome)

def TransmitBreak.ends : TransmitBreak LibraryError →
    Except (PcscError LibraryError) TransportOutcome
  | .outcome ending => .ok ending
  | .error reason => .error reason

/-- A reply in a receive buffer: data and status word must fit it together. -/
def received :
    Except (TransmitBreak LibraryError) Bytes → Except (TransmitBreak LibraryError) Bytes
  | .error broken => .error broken
  | .ok raw =>
    if extendedResponseDataMaxBytes < raw.length then .error (.error (.pcsc .insufficientBuffer))
    else .ok raw

def chainExceeded : PcscError LibraryError :=
  .transport "61xx GET RESPONSE chain exceeded 64 KiB"

def chainStalled : PcscError LibraryError :=
  .transport "card signalled 61xx but returned no bytes (stalled chain)"

/-- The GET RESPONSE loop. Every round adds bytes below the ceiling. -/
def settleChain (combined : Bytes) (nextLe : UInt8) : Exchange LibraryError :=
  .ask (GetResponse.intoApdu ⟨.plain, nextLe⟩).bytes fun reply =>
    match received reply with
    | .error broken => .done broken.ends
    | .ok raw =>
      match splitStatus raw with
      | none => .done (.ok .protocolDesync)
      | some chained =>
        if _hBound : extendedResponseDataMaxBytes < combined.length + chained.body.length then
          .done (.error chainExceeded)
        else if chained.sw1 = sw1BytesAvailable then
          if _hStalled : chained.body = [] then .done (.error chainStalled)
          else settleChain (combined ++ chained.body) chained.sw2
        else .done (.ok (.response ⟨combined ++ chained.body, chained.sw1, chained.sw2⟩))
termination_by extendedResponseDataMaxBytes - combined.length
decreasing_by
  have hBody := List.length_pos_iff.mpr _hStalled
  rw [List.length_append]
  omega

def runT0Exchange (apduBytes : Bytes) : Exchange LibraryError :=
  .ask apduBytes fun reply =>
    match received reply with
    | .error broken => .done broken.ends
    | .ok raw =>
      match splitStatus raw with
      | none => .done (.ok .protocolDesync)
      | some first =>
        if first.sw1 = sw1BytesAvailable then settleChain first.body first.sw2
        else .done (.ok (.response first))

variable (protocol : Protocol)

variable (apdu : Bytes)

def t0Adaptation : Option Bytes :=
  if protocol = .t0 then t0Case3FromShortCase4 apdu else none

/-- The bytes of a command as the card's protocol takes them. -/
def bytesToSend : Bytes :=
  (t0Adaptation protocol apdu).getD apdu

def wrongLeCorrection (command : CommandApdu) :
    Except (PcscError LibraryError) TransportOutcome → Option CommandApdu
  | .ok (.response response) =>
    if response.sw1 = sw1WrongLe then command.correctedWrongLe response.sw2 else none
  | _ => none

/-- A command that may be sent again, corrected at most once. -/
def exchangePlain (command : CommandApdu) :
    Transmission LibraryError (Except (PcscError LibraryError) TransportOutcome) := do
  let outcome ← runT0Exchange (bytesToSend protocol command.bytes)
  match wrongLeCorrection command outcome with
  | none => .done outcome
  | some corrected => runT0Exchange (bytesToSend protocol corrected.bytes)

def exchangeCredential (command : CredentialCommand) : Exchange LibraryError :=
  runT0Exchange (bytesToSend protocol command.wire)

def IsGetResponse : Prop :=
  ∃ le, apdu = (GetResponse.intoApdu ⟨.plain, le⟩).bytes

/-- Every round but the last adds a byte. -/
theorem settleChain_bounded (combined : Bytes) (nextLe : UInt8) :
    (settleChain combined nextLe : Exchange LibraryError).Bounded IsGetResponse
      (extendedResponseDataMaxBytes - combined.length + 1) := by
  induction hLeft : extendedResponseDataMaxBytes - combined.length using Nat.strong_induction_on
    generalizing combined nextLe with
  | _ left ih =>
    rw [settleChain]
    refine ⟨⟨nextLe, rfl⟩, fun reply => ?_⟩
    dsimp only
    split
    · trivial
    split
    · trivial
    rename_i chained _
    split
    · trivial
    rename_i hBound
    split
    · split
      · trivial
      rename_i hProgressed
      have hBody := List.length_pos_iff.mpr hProgressed
      refine (ih _ ?_ _ _ rfl).mono (fun _ => id) ?_
      · rw [List.length_append]
        omega
      · rw [List.length_append]
        omega
    · trivial

/-- An exchange transmits its APDU first, then GET RESPONSE only. -/
theorem runT0Exchange_eq_ask (apduBytes : Bytes) :
    ∃ next, (runT0Exchange apduBytes : Exchange LibraryError) = .ask apduBytes next ∧
      ∀ reply, (next reply).Bounded IsGetResponse (extendedResponseDataMaxBytes + 1) := by
  refine ⟨_, rfl, fun reply => ?_⟩
  split
  · trivial
  split
  · trivial
  split
  · exact (settleChain_bounded _ _).mono (fun _ => id) (Nat.succ_le_succ (Nat.sub_le _ _))
  · trivial

theorem bytesToSend_credential (protocol : Protocol) (command : CredentialCommand) :
    (bytesToSend protocol command.wire = command.wire ∨
        bytesToSend protocol command.wire = command.wire.dropLast) ∧
      6 ≤ (bytesToSend protocol command.wire).length := by
  unfold bytesToSend
  cases hAdapted : t0Adaptation protocol command.wire with
  | none => exact ⟨.inl rfl, command.shape⟩
  | some case3 =>
    unfold t0Adaptation at hAdapted
    split at hAdapted
    · obtain ⟨hBytes, hLength⟩ := t0Case3FromShortCase4_eq_some hAdapted
      exact ⟨.inr hBytes, hLength⟩
    · cases hAdapted

theorem not_isGetResponse {apdu} (h : 6 ≤ apdu.length) : ¬IsGetResponse apdu := by
  rintro ⟨le, rfl⟩
  exact absurd h (by decide : ¬6 ≤ 5)

end RefineId.Pcsc
