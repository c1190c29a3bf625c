import RefineId.Ccid.Exchange
import RefineId.Pcsc.Exchange

/-! A credential command over either adapter: it is passed to the reader at
most once, and only GET RESPONSE follows it. -/
namespace RefineId.Apdu

open Data Semantics Ccid Pcsc

/-- A credential goes out first and never again; the rest are follow-ups. -/
def SentOnce {Request : Type} (followUp : Request → Prop) (credential : Request)
    (sent : List Request) : Prop :=
  ∃ later, sent = credential :: later ∧ credential ∉ later ∧ ∀ request ∈ later, followUp request

/-- A program that asks for the credential first, and then for follow-ups. -/
theorem SentOnce.of_ask {Request Reply α : Type} {followUp credential}
    {program : Dialogue Request Reply α} {bound : Nat} (hCredential : ¬followUp credential)
    (h : ∃ next, program = .ask credential next ∧ ∀ reply, (next reply).Bounded followUp bound)
    (replies : List Reply) : SentOnce followUp credential (program.sent replies) := by
  obtain ⟨next, rfl, hNext⟩ := h
  cases replies with
  | nil => exact ⟨[], rfl, by simp, by simp⟩
  | cons reply replies =>
    have hLater := Dialogue.every_sent (hNext reply).every replies
    exact ⟨_, rfl, fun hAgain => hCredential (hLater credential hAgain), hLater⟩

/-- A credential command is passed to the reader at most once and everything
else is GET RESPONSE, whatever the card and the host answer: over the reader's
own protocol, where each transfer in turn passes a first part of its bytes once
and in order, and over PC/SC. -/
theorem credential_sent_at_most_once (command : CredentialCommand) :
    (∀ protocol exchangeLevel replies,
      (Ccid.transmitCredential protocol exchangeLevel command).sent replies = [] ∨
        ∃ prepared, (prepared = command.wire ∨ prepared = command.wire.dropLast) ∧
          SentOnce Ccid.IsGetResponse (Ccid.transfer prepared)
            ((Ccid.transmitCredential protocol exchangeLevel command).sent replies)) ∧
      (∀ engine now ports opId apdu turns,
        Ccid.passedBlocks ((Ccid.Execution.begin engine now opId (Ccid.transfer apdu)).run ports
          opId turns).calls <+: apdu) ∧
      ∀ (LibraryError : Type) protocol
        (replies : List (Except (Pcsc.TransmitBreak LibraryError) Bytes)),
        ∃ prepared, (prepared = command.wire ∨ prepared = command.wire.dropLast) ∧
          SentOnce Pcsc.IsGetResponse prepared
            ((Pcsc.exchangeCredential protocol command).sent replies) := by
  refine ⟨fun protocol exchangeLevel replies => ?_, fun engine now ports opId apdu turns =>
    Ccid.begin_passed ports opId engine now _ _ apdu turns, fun _ protocol replies => ?_⟩
  · unfold transmitCredential
    cases hPrepared : prepareCommandBytes protocol exchangeLevel command.wire with
    | error error => exact .inl rfl
    | ok prepared =>
      obtain ⟨hBytes, hLength⟩ := prepare_credential hPrepared
      exact .inr ⟨prepared, hBytes,
        .of_ask (Ccid.not_isGetResponse hLength) (runExchange_eq_ask prepared) replies⟩
  · obtain ⟨hBytes, hLength⟩ := bytesToSend_credential protocol command
    exact ⟨_, hBytes, .of_ask (Pcsc.not_isGetResponse hLength) (runT0Exchange_eq_ask _) replies⟩

end RefineId.Apdu
