import RefineId.Auth.Manage
import RefineId.Semantics.Run
import RefineId.Semantics.Transcript

/-! Unblocking and activation against a card that counts tries honestly: no
counter is driven to its last tries, whatever codes are typed. -/
namespace RefineId.Auth

open Data Apdu Semantics Semantics.Dialogue Function List Nat PinReferenceScheme CredentialBody PasswordLengthRange

variable {E : Type}

def FlooredCredential.reference (numbering : PinReferenceScheme) : FlooredCredential → UInt8
  | .pin1 => numbering.reference .pin1
  | .pin2 => numbering.reference .pin2
  | .puk => numbering.pukReference

def named (numbering : PinReferenceScheme) (reference : UInt8) : Option FlooredCredential :=
  [FlooredCredential.pin1, .pin2, .puk].find? fun credential =>
    credential.reference numbering = reference

/-- The credential a command presents and the block the card compares: VERIFY
and CHANGE REFERENCE DATA present the credential they name, RESET RETRY COUNTER
with a code presents the PUK in its first block. -/
def presents (numbering : PinReferenceScheme) (command : CredentialCommand) :
    Option (FlooredCredential × Bytes) :=
  match command.wire with
  | _ :: instruction :: p1 :: p2 :: _ :: body =>
    if instruction = verifyIns ∨ instruction = changeReferenceDataIns then
      (named numbering p2).map (·, body)
    else if instruction = resetRetryCounterIns ∧ p1 = resetP1CodeThenNew then
      some (.puk, body.take pinStoredLength)
    else none
  | _ => none

def Accepted (reply : Except E TransportOutcome) : Prop :=
  ∃ response, reply = .ok (.response response) ∧ response.statusWord = .success

/-- A status that tells the truth about a counter: a count is the counter, a
block is an exhausted one, and a credential stands verified only with all its
tries. The other answers tell nothing. -/
def Truthful (limit count : Nat) : PinStatus → Prop
  | .remaining retries => retries.get.toNat = count
  | .locked => count = 0
  | .verified => count = limit
  | .noInfo | .other _ => True

/-- What presenting a block for a credential comes to, from the counters before
to those after: the command is lost on its way; or the block is wrong or the
credential blocked, a try is spent and the command refused; or it is right, its
counter is full again and no other one lower. -/
def Presentation (limit before after : FlooredCredential → Nat) (credential : FlooredCredential)
    (right : Bool) (reply : Except E TransportOutcome) : Prop :=
  (¬Accepted reply ∧ after = before) ∨ (¬(right ∧ 0 < before credential) ∧ ¬Accepted reply ∧
      after = Function.update before credential (before credential - 1)) ∨
    (right ∧ 0 < before credential ∧ after credential = limit credential ∧
      ∀ other, after other = before other ∨ after other = limit other)

/-- A card with one try counter per credential that reports its counters truly
and keeps them as its commands say. -/
structure HonestCard (E : Type) (numbering : PinReferenceScheme) where
  State : Type
  answer : State → CardRequest → Except E TransportOutcome × State
  counter : State → FlooredCredential → Nat
  limit : FlooredCredential → Nat
  right : State → FlooredCredential → Bytes → Bool
  limit_ge : ∀ credential, 3 ≤ limit credential
  counter_le : ∀ state credential, counter state credential ≤ limit credential
  read_counter : ∀ state command, counter (answer state (.transmit command)).2 = counter state
  read_right : ∀ state command, right (answer state (.transmit command)).2 = right state
  probe_truthful : ∀ state credential response,
    (answer state (.transmit (statusProbe (credential.reference numbering)))).1 =
      .ok (.response response) →
    Truthful (limit credential) (counter state credential) (classifyPinStatusSw response.statusWord)
  container_truthful : ∀ state query response,
    pinContainerQuery citizen.pukReference = some query →
    (answer state (.transmit query)).1 = .ok (.response response) →
    Truthful (limit .puk) (counter state .puk) (pukStatusOf response)
  presented : ∀ state command credential block,
    presents numbering command = some (credential, block) →
    Presentation limit (counter state) (counter (answer state (.transmitCredential command)).2)
      credential (right state credential block) (answer state (.transmitCredential command)).1
  other_credential : ∀ state command, presents numbering command = none → ∀ credential,
    counter (answer state (.transmitCredential command)).2 credential = counter state credential ∨
      counter (answer state (.transmitCredential command)).2 credential = limit credential
  puk_kept : ∀ state request, right (answer state request).2 .puk = right state .puk

variable {numbering : PinReferenceScheme} {reply : Except E TransportOutcome}
  {response : ResponseApdu}

section Reads
variable (card : HonestCard E numbering)

abbrev CardExchange : Type :=
  Exchange card.State CardRequest (Except E TransportOutcome)

abbrev CardLog : Type := List (CardExchange card)

/-- A status that is true of a credential's counter. -/
abbrev TrueOf (state : card.State) (credential : FlooredCredential) : PinStatus → Prop :=
  Truthful (card.limit credential) (card.counter state credential)

structure Reading (exchange : CardExchange card) : Prop where
  plain : ∃ command, exchange.request = .transmit command
  kept : card.counter exchange.next = card.counter exchange.state

/-- A program that only reads and finds out `P`. -/
def Reads {α : Type} (state : card.State) (P : α → Prop) (program : CardProgram E α) : Prop :=
  Ends card.answer program state fun result last log =>
    (∀ exchange ∈ log, Reading card exchange) ∧ card.counter last = card.counter state ∧
      card.right last = card.right state ∧ ∀ value, result = .ok value → P value

variable {card} {α β : Type} {state : card.State} {P : α → Prop} {Q : β → Prop}

theorem reads_pure {value} (h : P value) : Reads card state P (pure value) := by
  refine ends_pure.mpr ⟨by simp, rfl, rfl, ?_⟩
  rintro other hOther
  cases hOther
  exact h

variable {first : CardProgram E α}

theorem reads_bind {next} (hFirst : Reads card state P first)
    (hNext : ∀ value last, P value → card.counter last = card.counter state →
      card.right last = card.right state → Reads card last Q (next value)) :
    Reads card state Q (first >>= next) := by
  refine ends_bind (hFirst.mono ?_)
  rintro (- | value) last log ⟨hLog, hCounter, hRight, hValue⟩
  · exact ⟨hLog, hCounter, hRight, fun _ h => by cases h⟩
  refine (hNext value last (hValue value rfl) hCounter hRight).mono ?_
  rintro result final rest ⟨hRest, hCounter', hRight', hResult⟩
  exact ⟨forall_mem_append.mpr ⟨hLog, hRest⟩, hCounter'.trans hCounter,
    hRight'.trans hRight, hResult⟩

theorem reads_map {f} (hFirst : Reads card state P first)
    (hMap : ∀ value, P value → Q (f value)) : Reads card state Q (f <$> first) := by
  exact reads_bind hFirst fun value last hValue _ _ => reads_pure (hMap value hValue)

theorem intoResponse_eq_ok (h : intoResponse reply = .ok response) :
    reply = .ok (.response response) := by
  rcases reply with error | outcome
  · cases h
  cases outcome with
  | response other =>
    cases h
    rfl
  | _ => cases h

theorem reads_transmit (command : CommandApdu) : Reads card state
      (fun response => (card.answer state (.transmit command)).1 = .ok (.response response))
      (exchange (.transmit command)) := by
  refine ⟨?_, card.read_counter state command, card.read_right state command, ?_⟩
  · exact forall_mem_singleton.mpr ⟨⟨command, rfl⟩, card.read_counter state command⟩
  · exact fun response hResponse => intoResponse_eq_ok hResponse

theorem reads_pinStatus (slot : PinSlot) : Reads card state
      (TrueOf card state (.ofSlot slot))
      (pinStatusWithScheme numbering slot) := by
  have hProbe : statusProbe (numbering.reference slot) =
      statusProbe ((FlooredCredential.ofSlot slot).reference numbering) := by
    cases slot <;> rfl
  have hWord : Reads card state
      (fun sw => TrueOf card state (.ofSlot slot)
        (classifyPinStatusSw sw)) (probeStatusWord numbering slot) := by
    rw [probeStatusWord, hProbe]
    exact reads_bind (reads_transmit _) fun response _ hResponse _ _ =>
      reads_pure (card.probe_truthful state (.ofSlot slot) response hResponse)
  exact reads_bind hWord fun sw _ hTrue _ _ => reads_pure hTrue

theorem reads_pukStatus : Reads card state (TrueOf card state .puk)
      (pukStatus numbering) := by
  refine reads_bind (reads_transmit _) fun response last hResponse hCounter _ => ?_
  have hTrue := card.probe_truthful state .puk response hResponse
  have hContainer : Reads card last (TrueOf card state .puk)
      readPukStatusFromContainer := by
    rw [readPukStatusFromContainer]
    cases hQuery : pinContainerQuery citizen.pukReference with
    | none => exact reads_pure trivial
    | some query =>
      refine reads_map (reads_transmit query) fun answer hAnswer => ?_
      have hTold := card.container_truthful last query answer hQuery hAnswer
      rwa [hCounter] at hTold
  have hEither : ∀ scheme status, TrueOf card state .puk status →
      Reads card last (TrueOf card state .puk)
        (pukStatusOrContainer scheme status) := by
    intro scheme status hStatus
    cases scheme with
    | organizational => exact reads_pure hStatus
    | citizen =>
      cases status with
      | remaining retries | locked => exact reads_pure hStatus
      | verified | noInfo | other sw => exact hContainer
  exact hEither numbering _ hTrue

theorem reads_changeRecord (slot : PinSlot) :
    Reads card state (fun _ => True) (readPinChangeRecord slot) := by
  rw [readPinChangeRecord]
  cases pinContainerQuery (citizen.reference slot) with
  | none => exact reads_pure trivial
  | some query => exact reads_map (reads_transmit query) fun _ _ => trivial

variable (scheme : ActivationScheme)

theorem reads_slot (slot : PinSlot) : Reads card state
      (fun found => TrueOf card state (.ofSlot slot) found.2)
      (readSlot scheme numbering slot) := by
  refine reads_bind (reads_changeRecord slot) fun record last _ hCounter _ => ?_
  refine reads_bind (reads_pinStatus slot) fun status _ hStatus _ _ => ?_
  rw [TrueOf, hCounter] at hStatus
  exact reads_pure hStatus

theorem reads_activation : Reads card state (fun reading =>
        TrueOf card state .pin1 reading.pin1 ∧
          TrueOf card state .pin2 reading.pin2)
      (readActivation scheme numbering) := by
  refine reads_bind (reads_slot scheme .pin1) fun first last hFirst hCounter _ => ?_
  refine reads_bind (reads_slot scheme .pin2) fun second _ hSecond _ _ => ?_
  rw [TrueOf, hCounter] at hSecond
  exact reads_pure ⟨hFirst, hSecond⟩

end Reads

variable {body : CredentialBody} {card : HonestCard E numbering} {header : CommandHeader}

section Presenting
variable (credential : FlooredCredential)

theorem named_reference : named numbering (credential.reference numbering) = some credential := by
  cases numbering <;> cases credential <;> decide

theorem presents_named {instruction} (p1 : UInt8) (body : CredentialBody)
    (h : instruction = verifyIns ∨ instruction = changeReferenceDataIns) :
    presents numbering (.assemble ⟨.plain, instruction, p1, credential.reference numbering⟩
      body) = some (credential, body.bytes) := by
  refine (if_pos h).trans ?_
  rw [named_reference]
  rfl

variable {scheme : PinReferenceScheme} {groups : List Bytes}

/-- A credential body holds just the blocks written into it. -/
theorem bytes_of_fromBlock (h : fromBlock (writeCredentialBlocks scheme groups).1
      (writeCredentialBlocks scheme groups).2 = .ok body) :
    body.bytes = groups.flatMap (credentialBlock scheme) := by
  unfold fromBlock at h
  split_ifs at h with hEmpty hBound
  cases h
  dsimp only [writeCredentialBlocks] at hBound ⊢
  rw [take_take, Nat.min_eq_left (Nat.le_of_not_lt hBound), take_left]

def credentialSent (card : HonestCard E numbering) (state : card.State)
    (command : CredentialCommand) : CardExchange card :=
  ⟨state, .transmitCredential command, (card.answer state (.transmitCredential command)).1,
    (card.answer state (.transmitCredential command)).2⟩

variable {state : card.State}

theorem ends_exchange {request Q} :
    Ends card.answer (exchange request) state Q ↔
      Q (intoResponse (card.answer state request).1) (card.answer state request).2
        [⟨state, request, (card.answer state request).1, (card.answer state request).2⟩] :=
  Iff.rfl

/-- One credential command: nothing is sent, or it is the only exchange. -/
theorem ends_manage
    {Q} (hError : ∀ error, Q (.error error) state [])
    (hSent : ∀ body result, body.bytes = groups.flatMap (credentialBlock scheme) →
      (result = .ok .ok → Accepted (credentialSent card state (.assemble header body)).reply) →
      Q result (credentialSent card state (.assemble header body)).next
        [credentialSent card state (.assemble header body)]) :
    Ends card.answer (classifyManageSw <$> credentialExchange scheme header groups) state Q := by
  change Ends card.answer ((require .command (fromBlock
    (writeCredentialBlocks scheme groups).1 (writeCredentialBlocks scheme groups).2) >>=
      fun body => exchange (.transmitCredential (.assemble header body)) >>=
        fun response => pure response.statusWord) >>= fun sw => pure (classifyManageSw sw)) state Q
  refine ends_bind (ends_bind (ends_mk.mpr ?_))
  cases hBody : fromBlock (writeCredentialBlocks scheme groups).1
      (writeCredentialBlocks scheme groups).2 with
  | error error => exact hError _
  | ok body =>
    have hThis := hSent body
    refine ends_bind (ends_exchange.mpr ?_)
    cases hReply : (intoResponse (card.answer state
        (.transmitCredential (.assemble header body))).1 :
          Except (AuthError E) ResponseApdu) with
    | error error => exact hThis _ (bytes_of_fromBlock hBody) fun hOk => by cases hOk
    | ok response =>
      refine hThis _ (bytes_of_fromBlock hBody) fun hOk =>
        ⟨response, intoResponse_eq_ok hReply, ?_⟩
      have hWord := Except.ok.inj hOk
      generalize response.statusWord = word at hWord ⊢
      cases word <;> first | rfl | cases hWord

end Presenting

variable {credential other : FlooredCredential} {right : Bool}

section Floors

/-- A counter that is exhausted or has more than its last two tries. -/
def Floored (count : Nat) : Prop :=
  count = 0 ∨ 3 ≤ count

variable {state : card.State} {status : PinStatus}

theorem floored_of_checkLastTries (hTrue : TrueOf card state other status)
    (h : checkLastTries credential status = .ok ()) : Floored (card.counter state other) := by
  have hLimit := card.limit_ge other
  rw [TrueOf] at hTrue
  generalize card.counter state other = count at hTrue ⊢
  cases status with
  | verified => exact .inr (hTrue ▸ hLimit)
  | locked => exact .inl hTrue
  | noInfo | other sw => cases h
  | remaining retries =>
    rw [checkLastTries] at h
    cases hRisk : PinRetryRisk.fromRetries retries with
    | none => rw [hRisk] at h; cases h
    | some risk =>
      rw [hRisk] at h
      rw [PinRetryRisk.fromRetries, hTrue] at hRisk
      split at hRisk
      · exact .inr (by decide)
      · exact .inr (by decide)
      · exact .inr (by decide)
      · cases hRisk
        cases h
      · cases hRisk
        cases h
      · exact .inl rfl
      · cases hRisk

theorem floored_of_checkRetryFloor (hTrue : TrueOf card state .puk status)
    (h : checkRetryFloor .puk status = .ok ()) : Floored (card.counter state .puk) := by
  cases status with
  | verified => cases h
  | remaining retries | noInfo | other sw => exact floored_of_checkLastTries hTrue h
  | locked => exact .inl hTrue

variable {limit before after : FlooredCredential → Nat}

section
variable (h : Presentation limit before after credential right reply)
include h

theorem Presentation.right_of_accepted (hAccepted : Accepted reply) : right = true := by
  rcases h with ⟨hRefused, -⟩ | ⟨-, hRefused, -⟩ | ⟨hRight, -⟩
  · exact absurd hAccepted hRefused
  · exact absurd hAccepted hRefused
  · exact hRight

/-- Only a wrong block lowers a counter, only its own, and from the floor up. -/
theorem Presentation.lowered (hLimit : ∀ other, before other ≤ limit other)
    (hFloor : Floored (before credential)) (hLower : after other < before other) :
    other = credential ∧ right = false ∧ 2 ≤ after other := by
  rcases h with ⟨-, rfl⟩ | ⟨hWrong, -, rfl⟩ | ⟨-, -, -, hOthers⟩
  · omega
  · by_cases hOther : other = credential
    · subst hOther
      rw [update_self] at hLower ⊢
      have hSome : 0 < before other := by omega
      refine ⟨rfl, ?_, ?_⟩
      · cases right with
        | false => rfl
        | true => exact absurd ⟨rfl, hSome⟩ hWrong
      · rw [Floored] at hFloor
        omega
    · rw [update_of_ne hOther] at hLower
      omega
  · have hBound := hLimit other
    have hSame := hOthers other
    omega

end

end Floors

section Logs
def lowers (card : HonestCard E numbering) (credential : FlooredCredential)
    (exchange : CardExchange card) : Bool :=
  card.counter exchange.next credential < card.counter exchange.state credential

/-- Exchanges that spend at most so many tries of each credential and take no
counter below two. -/
structure Sparing (card : HonestCard E numbering) (log : CardLog card)
    (spent : FlooredCredential → Nat) : Prop where
  floor : ∀ exchange ∈ log, ∀ credential, lowers card credential exchange →
    2 ≤ card.counter exchange.next credential
  spent : ∀ credential, log.countP (lowers card credential) ≤ spent credential

def IsReset (request : CardRequest) : Prop :=
  ∃ command, request = .transmitCredential command ∧ command.wire[1]? = some resetRetryCounterIns

def VerifiesPuk (numbering : PinReferenceScheme) (request : CardRequest) : Prop :=
  ∃ command block, request = .transmitCredential command ∧
    command.wire[1]? = some verifyIns ∧ presents numbering command = some (.puk, block)

/-- Every RESET RETRY COUNTER comes after an accepted verification of the PUK. -/
def VerifiedFirst {card : HonestCard E numbering} (log : CardLog card) : Prop :=
  ∀ before exchange after, log = before ++ exchange :: after → IsReset exchange.request →
    ∃ verification ∈ before, VerifiesPuk numbering verification.request ∧
      Accepted verification.reply

variable {first second : CardLog card} {spent more : FlooredCredential → Nat}

theorem Sparing.nil : Sparing card [] spent :=
  ⟨by simp, by simp⟩

theorem Sparing.mono (h : Sparing card first spent) (hLe : ∀ credential, spent credential ≤
    more credential) : Sparing card first more :=
  ⟨h.floor, fun credential => (h.spent credential).trans (hLe credential)⟩

theorem Sparing.append (hFirst : Sparing card first spent) (hSecond : Sparing card second more) :
    Sparing card (first ++ second) fun credential => spent credential + more credential where
  floor := forall_mem_append.mpr ⟨hFirst.floor, hSecond.floor⟩
  spent := by
    intro credential
    rw [countP_append]
    exact Nat.add_le_add (hFirst.spent credential) (hSecond.spent credential)

theorem sparing_reading (h : ∀ exchange ∈ first, Reading card exchange) :
    Sparing card first fun _ => 0 where
  floor := by
    intro exchange hExchange credential hLower
    rw [lowers, (h exchange hExchange).kept] at hLower
    simp at hLower
  spent := by
    intro credential
    refine le_of_eq (countP_eq_zero.mpr fun exchange hExchange => ?_)
    rw [lowers, (h exchange hExchange).kept]
    simp

/-- Reading before and after a log changes nothing of what it spends. -/
theorem Sparing.after_reading (hReading : ∀ exchange ∈ first, Reading card exchange)
    (hSecond : Sparing card second spent) : Sparing card (first ++ second) spent := by
  refine ((sparing_reading hReading).append hSecond).mono fun credential => ?_
  rw [zero_add]

/-- What stands in the first log may verify for the second. -/
theorem VerifiedFirst.append_of (hFirst : VerifiedFirst first)
    (hSecond : ∀ before exchange after, second = before ++ exchange :: after →
      IsReset exchange.request → ∃ verification ∈ first ++ before,
        VerifiesPuk numbering verification.request ∧ Accepted verification.reply) :
    VerifiedFirst (first ++ second) := by
  intro before exchange after hSplit hReset
  rcases append_eq_append_iff.mp hSplit with ⟨middle, rfl, rfl⟩ | ⟨middle, rfl, hMiddle⟩
  · exact hSecond middle exchange after rfl hReset
  cases middle with
  | nil => simpa using hSecond [] exchange after hMiddle.symm hReset
  | cons head rest =>
    obtain ⟨rfl, -⟩ := cons.inj hMiddle
    exact hFirst before exchange rest rfl hReset

theorem VerifiedFirst.append (hFirst : VerifiedFirst first) (hSecond : VerifiedFirst second) :
    VerifiedFirst (first ++ second) := by
  refine hFirst.append_of fun before exchange after hSplit hReset => ?_
  obtain ⟨verification, hMem, hVerified⟩ := hSecond before exchange after hSplit hReset
  exact ⟨verification, mem_append_right _ hMem, hVerified⟩

theorem verifiedFirst_of_forall (h : ∀ exchange ∈ first, ¬IsReset exchange.request) :
    VerifiedFirst first := by
  intro before exchange after hSplit hReset
  exact absurd hReset (h exchange (by rw [hSplit]; simp))

theorem verifiedFirst_reading (h : ∀ exchange ∈ first, Reading card exchange) :
    VerifiedFirst first := by
  refine verifiedFirst_of_forall fun exchange hExchange hReset => ?_
  obtain ⟨command, hPlain⟩ := (h exchange hExchange).plain
  obtain ⟨other, hCredential, -⟩ := hReset
  rw [hPlain] at hCredential
  cases hCredential

end Logs

section Calls
variable {state : card.State}

/-- One try of a credential, when the block for it is wrong. -/
def tryOf (credential : FlooredCredential) (right : Bool) (other : FlooredCredential) : Nat :=
  if other = credential ∧ right = false then 1 else 0

variable {command : CredentialCommand}

theorem sparing_presented {block}
    (hPresents : presents numbering command = some (credential, block))
    (hFloor : Floored (card.counter state credential)) :
    Sparing card [credentialSent card state command]
      (tryOf credential (card.right state credential block)) := by
  have hLowered : ∀ other, lowers card other (credentialSent card state command) →
      other = credential ∧ card.right state credential block = false ∧
        2 ≤ card.counter (credentialSent card state command).next other :=
    fun other hLower => (card.presented state command credential block hPresents).lowered
      (card.counter_le state) hFloor (of_decide_eq_true hLower)
  constructor
  · exact forall_mem_singleton.mpr fun other hLower => (hLowered other hLower).2.2
  intro other
  rw [countP_singleton, tryOf]
  split_ifs with hLower hSpent
  · exact le_refl 1
  · obtain ⟨hSame, hWrong, -⟩ := hLowered other hLower
    exact absurd ⟨hSame, hWrong⟩ hSpent
  · exact zero_le 1
  · exact le_refl 0

theorem sparing_newOnly (hPresents : presents numbering command = none) :
    Sparing card [credentialSent card state command] fun _ => 0 := by
  have hKept : ∀ other, ¬lowers card other (credentialSent card state command) := by
    intro other hLower
    have hLess := of_decide_eq_true hLower
    have hBound := card.counter_le state other
    rcases card.other_credential state command hPresents other with hSame | hFull
    · exact absurd hSame (Nat.ne_of_lt hLess)
    · exact absurd hBound (not_le.mpr (hFull ▸ hLess))
  constructor
  · exact forall_mem_singleton.mpr fun other hLower => absurd hLower (hKept other)
  · intro other
    rw [countP_singleton, if_neg (hKept other)]

/-- What unblocking comes to: it spends a try of the PUK if the PUK is wrong and
of nothing else, succeeds only with the right one, and resets only what it
verified. -/
structure Unblocks (state : card.State) (puk : Bytes)
    (result : Except (AuthError E) ManageOutcome) (last : card.State)
    (log : CardLog card) : Prop where
  sparing : Sparing card log (tryOf .puk (card.right state .puk (credentialBlock numbering puk)))
  right : card.right last .puk = card.right state .puk
  accepted : result = .ok .ok → card.right state .puk (credentialBlock numbering puk) = true
  verified : numbering = .organizational → VerifiedFirst log

variable {puk : Bytes}

theorem unblocks_nothing (error : AuthError E) :
    Unblocks state puk (.error error) state ([] : CardLog card) where
  sparing := .nil
  right := rfl
  accepted := fun h => by cases h
  verified := fun _ => verifiedFirst_of_forall (by simp)

variable {result : Except (AuthError E) ManageOutcome}
  {reading log : CardLog card} {last : card.State}

theorem Unblocks.after_reading {before} (hReading : ∀ exchange ∈ reading, Reading card exchange)
    (hRight : card.right state = card.right before) (h : Unblocks state puk result last log) :
    Unblocks before puk result last (reading ++ log) where
  sparing := by
    rw [← hRight]
    exact .after_reading hReading h.sparing
  right := by
    rw [h.right, hRight]
  accepted := by
    rw [← hRight]
    exact h.accepted
  verified := fun hNumbering => (verifiedFirst_reading hReading).append (h.verified hNumbering)

theorem credentialBlock_citizen_length (group : Bytes) :
    (credentialBlock .citizen group).length = pinStoredLength := by
  simp only [credentialBlock, length_append, length_replicate]
  have hTake : (group.take pinStoredLength).length ≤ pinStoredLength := length_take_le _ _
  omega

theorem verifiedFirst_sent (h : header.instruction ≠ resetRetryCounterIns) :
    VerifiedFirst [credentialSent card state (.assemble header body)] := by
  refine verifiedFirst_of_forall (forall_mem_singleton.mpr ?_)
  rintro ⟨command, hCommand, hIns⟩
  cases hCommand
  exact h (Option.some.inj hIns)

variable (slot : PinSlot)

theorem resetCodeThenNew_ends {card : HonestCard E .citizen} {state}
    (puk new : Bytes) (hFloor : Floored (card.counter state .puk)) :
    Ends card.answer (resetCodeThenNew .citizen slot puk new) state (Unblocks state puk) := by
  refine ends_manage unblocks_nothing fun body result hBody hAccepted => ?_
  have hBlock : body.bytes.take pinStoredLength = credentialBlock .citizen puk := by
    rw [hBody, flatMap_cons, take_left' (credentialBlock_citizen_length puk)]
  have hPresents : presents .citizen (.assemble ⟨.plain, resetRetryCounterIns, resetP1CodeThenNew,
      citizen.reference slot⟩ body) = some (.puk, credentialBlock .citizen puk) := by
    rw [← hBlock]
    rfl
  constructor
  · exact sparing_presented hPresents hFloor
  · exact card.puk_kept state _
  · exact fun hOk => (card.presented state _ _ _ hPresents).right_of_accepted (hAccepted hOk)
  · rintro ⟨⟩

theorem verifyPuk_ends (puk : Bytes) (hFloor : Floored (card.counter state .puk)) :
    Ends card.answer (verifyPuk numbering puk) state fun result last log =>
      Unblocks state puk result last log ∧ (result = .ok .ok → ∃ verification ∈ log,
        VerifiesPuk numbering verification.request ∧ Accepted verification.reply) := by
  refine ends_manage (fun error => ⟨unblocks_nothing error, fun h => by cases h⟩)
    fun body result hBody hAccepted => ?_
  have hBlock : body.bytes = credentialBlock numbering puk := by
    rw [hBody, flatMap_cons, flatMap_nil, append_nil]
  have hPresents := @presents_named numbering .puk _ verifyP1 body (.inl rfl)
  rw [hBlock] at hPresents
  refine ⟨⟨sparing_presented hPresents hFloor, card.puk_kept state _, ?_, ?_⟩, ?_⟩
  · exact fun hOk => (card.presented state _ _ _ hPresents).right_of_accepted (hAccepted hOk)
  · exact fun _ => verifiedFirst_sent (by decide : verifyIns ≠ _)
  · exact fun hOk => ⟨_, mem_singleton_self _, ⟨_, _, rfl, rfl, hPresents⟩, hAccepted hOk⟩

/-- The organizational card verifies the PUK by itself, and only an accepted one
is followed by the reset. -/
theorem verifyThenReset_ends {card : HonestCard E .organizational} {state}
    (puk new : Bytes) (hFloor : Floored (card.counter state .puk)) :
    Ends card.answer (verifyPuk .organizational puk >>= fun verified =>
      if verified = .ok then resetNewOnly .organizational slot new else pure verified) state
      (Unblocks state puk) := by
  refine ends_bind ((verifyPuk_ends puk hFloor).mono ?_)
  rintro (error | verified) last log ⟨hVerify, hFirst⟩
  · exact hVerify
  by_cases hOk : verified = .ok
  · subst hOk
    have hStop : ∀ error : AuthError E, Unblocks state puk (.error error) last log := by
      intro error
      refine ⟨hVerify.sparing, hVerify.right, ?_, hVerify.verified⟩
      rintro ⟨⟩
    refine ends_manage (fun error => by rw [append_nil]; exact hStop error)
      fun reset outcome _ _ => ?_
    constructor
    · refine (hVerify.sparing.append (sparing_newOnly rfl)).mono fun credential => ?_
      rw [add_zero]
    · exact (card.puk_kept _ _).trans hVerify.right
    · exact fun _ => hVerify.accepted rfl
    refine fun _ => (hVerify.verified rfl).append_of fun before exchange after _ _ => ?_
    obtain ⟨verification, hMem, hVerification⟩ := hFirst rfl
    exact ⟨verification, mem_append_left _ hMem, hVerification⟩
  · dsimp only
    rw [if_neg hOk]
    exact ends_pure.mpr (by rw [append_nil]; exact hVerify)

theorem unblock_ends (puk new : Bytes) :
    Ends card.answer (unblock numbering slot puk new) state (Unblocks state puk) := by
  refine ends_bind (reads_pukStatus.mono ?_)
  rintro (error | status) last log ⟨hLog, hCounter, hRight, hStatus⟩
  · have hNothing : Unblocks state puk (.error error) last (log ++ []) :=
      (unblocks_nothing error).after_reading hLog hRight
    rwa [append_nil] at hNothing
  refine ends_bind (ends_mk.mpr ?_)
  cases hCheck : checkRetryFloor .puk status with
  | error refusal =>
    exact (unblocks_nothing (.retryFloor refusal)).after_reading hLog hRight
  | ok passed =>
    have hFloor : Floored (card.counter last .puk) := by
      rw [hCounter]
      exact floored_of_checkRetryFloor (hStatus status rfl) hCheck
    cases numbering with
    | citizen =>
      exact (resetCodeThenNew_ends slot puk new hFloor).mono fun result final rest hRest =>
        hRest.after_reading hLog hRight
    | organizational =>
      exact (verifyThenReset_ends slot puk new hFloor).mono fun result final rest hRest =>
        hRest.after_reading hLog hRight

/-- At most one try of each credential, no counter below two, and no reset
before the PUK was verified. -/
structure CallSafe (log : CardLog card) : Prop where
  sparing : Sparing card log fun _ => 1
  verified : numbering = .organizational → VerifiedFirst log

theorem callSafe_reading (h : ∀ exchange ∈ log, Reading card exchange) : CallSafe log :=
  ⟨(sparing_reading h).mono fun _ => zero_le 1, fun _ => verifiedFirst_reading h⟩

theorem callSafe_nil : CallSafe ([] : CardLog card) :=
  callSafe_reading (by simp)

theorem CallSafe.after_reading (hReading : ∀ exchange ∈ reading, Reading card exchange)
    (h : CallSafe log) : CallSafe (reading ++ log) :=
  ⟨.after_reading hReading h.sparing,
    fun hNumbering => (verifiedFirst_reading hReading).append (h.verified hNumbering)⟩

theorem tryOf_le_one (credential : FlooredCredential) (right : Bool) (other : FlooredCredential) :
    tryOf credential right other ≤ 1 := by
  rw [tryOf]
  split_ifs <;> decide

/-- What changing a PIN comes to: at most a try of that PIN, and the floor of
every other one kept. -/
structure Changes (state : card.State) (credential : FlooredCredential) (last : card.State)
    (log : CardLog card) : Prop where
  sparing : Sparing card log (tryOf credential false)
  verified : VerifiedFirst log
  others : ∀ other, other ≠ credential → Floored (card.counter state other) →
    Floored (card.counter last other)

theorem changes_nothing (credential : FlooredCredential) :
    Changes state credential state ([] : CardLog card) :=
  ⟨.nil, verifiedFirst_of_forall (by simp), fun _ _ h => h⟩

theorem Presentation.floored {limit before after}
    (h : Presentation limit before after credential right reply) (hLimit : 3 ≤ limit other)
    (hOther : other ≠ credential) (hFloor : Floored (before other)) : Floored (after other) := by
  rcases h with ⟨-, rfl⟩ | ⟨-, -, rfl⟩ | ⟨-, -, -, hOthers⟩
  · exact hFloor
  · rwa [update_of_ne hOther]
  rcases hOthers other with hSame | hFull
  · rwa [hSame]
  · exact .inr (hFull ▸ hLimit)

theorem change_ends (current new : Bytes) (hFloor : Floored (card.counter state (.ofSlot slot))) :
    Ends card.answer (change numbering slot current new) state fun _ last log =>
      Changes state (.ofSlot slot) last log := by
  refine ends_manage (fun error => changes_nothing _) fun body result _ _ => ?_
  have hReference : numbering.reference slot =
      (FlooredCredential.ofSlot slot).reference numbering := by
    cases slot <;> rfl
  have hPresents := @presents_named numbering (.ofSlot slot) _ changeP1CurrentThenNew body (.inr rfl)
  rw [← hReference] at hPresents
  constructor
  · refine (sparing_presented hPresents hFloor).mono fun other => ?_
    cases card.right state _ _ <;> simp [tryOf]
  · exact verifiedFirst_sent (by decide : changeReferenceDataIns ≠ _)
  · exact fun other hOther => (card.presented state _ _ _ hPresents).floored (card.limit_ge other)
      hOther

variable {code : ActivationCode}

theorem activateSlot_preset (hScheme : code.scheme = .presetActivationPin) (slot : PinSlot)
    (awaits : Bool) (fresh : Option Bytes)
    (hFloor : awaits && fresh.isSome → Floored (card.counter state (.ofSlot slot))) :
    Ends card.answer (activateSlot numbering code slot awaits fresh) state fun _ last log =>
      Changes state (.ofSlot slot) last log := by
  cases awaits with
  | false => exact ends_pure.mpr (changes_nothing _)
  | true =>
    cases fresh with
    | none => exact ends_pure.mpr (changes_nothing _)
    | some digits =>
      simp only [activateSlot, hScheme]
      exact ends_map (f := some) (change_ends slot code.digits digits (hFloor rfl))

/-- One PIN set by the PUK. -/
structure ActivatesByPuk (state : card.State) (code : Bytes)
    (result : Except (AuthError E) (Option ManageOutcome)) (last : card.State)
    (log : CardLog card) : Prop where
  sparing : Sparing card log (tryOf .puk (card.right state .puk (credentialBlock numbering code)))
  right : card.right last .puk = card.right state .puk
  idle : result = .ok none → log = []
  accepted : result = .ok (some .ok) → card.right state .puk (credentialBlock numbering code) = true
  verified : numbering = .organizational → VerifiedFirst log

theorem activateSlot_puk (hScheme : code.scheme = .activationCodeIsPuk) (slot : PinSlot)
    (awaits : Bool) (fresh : Option Bytes) :
    Ends card.answer (activateSlot numbering code slot awaits fresh) state
      (ActivatesByPuk state code.digits) := by
  have hIdle : ActivatesByPuk state code.digits (.ok none) state ([] : CardLog card) :=
    ⟨.nil, rfl, fun _ => rfl, (fun h => nomatch h), fun _ => verifiedFirst_of_forall (by simp)⟩
  cases awaits with
  | false => exact ends_pure.mpr hIdle
  | true =>
    cases fresh with
    | none => exact ends_pure.mpr hIdle
    | some digits =>
      simp only [activateSlot, hScheme]
      refine ends_map (f := some) ((unblock_ends slot code.digits digits).mono ?_)
      rintro (error | outcome) last log hUnblocks
      · exact ⟨hUnblocks.sparing, hUnblocks.right, (fun h => nomatch h), (fun h => nomatch h),
          hUnblocks.verified⟩
      · refine ⟨hUnblocks.sparing, hUnblocks.right, (fun h => nomatch h), ?_, hUnblocks.verified⟩
        rintro ⟨⟩
        exact hUnblocks.accepted rfl

/-- The PINs of an activation: the second is set only after the first was, or
had not to be. -/
def activateBoth (numbering : PinReferenceScheme) (code : ActivationCode) (awaits1 awaits2 : Bool)
    (fresh1 fresh2 : Option Bytes) : CardProgram E ActivationReport :=
  activateSlot numbering code .pin1 awaits1 fresh1 >>= fun pin1 =>
    if pin1 = none ∨ pin1 = some .ok then
      activateSlot numbering code .pin2 awaits2 fresh2 >>= fun pin2 =>
        pure ⟨code.scheme, pin1, pin2⟩
    else pure ⟨code.scheme, pin1, none⟩

theorem activateBoth_ends {awaits1 awaits2 fresh1 fresh2 Q}
    (hFirst : Ends card.answer (activateSlot numbering code .pin1 awaits1 fresh1) state Q)
    (hOne : ∀ result last log, Q result last log → CallSafe log)
    (hBoth : ∀ pin1 last log, Q (.ok pin1) last log → pin1 = none ∨ pin1 = some .ok →
      Ends card.answer (activateSlot numbering code .pin2 awaits2 fresh2) last
        fun _ _ rest => CallSafe (log ++ rest)) :
    Ends card.answer (activateBoth numbering code awaits1 awaits2 fresh1 fresh2) state
      fun _ _ log => CallSafe log := by
  refine ends_bind (hFirst.mono ?_)
  rintro (error | pin1) last log hThis
  · exact hOne _ _ _ hThis
  dsimp only
  split_ifs with hGoOn
  · exact ends_map (f := fun pin2 => (⟨code.scheme, pin1, pin2⟩ : ActivationReport))
      (hBoth pin1 last log hThis hGoOn)
  · exact ends_pure.mpr (by rw [append_nil]; exact hOne _ _ _ hThis)

/-- Both PINs by the PUK: a second attempt is made only with a PUK the card
took, so it spends nothing. -/
theorem activateBoth_puk (hScheme : code.scheme = .activationCodeIsPuk) (awaits1 awaits2 : Bool)
    (fresh1 fresh2 : Option Bytes) :
    Ends card.answer (activateBoth numbering code awaits1 awaits2 fresh1 fresh2) state
      fun _ _ log => CallSafe log := by
  refine activateBoth_ends (activateSlot_puk hScheme .pin1 awaits1 fresh1)
    (fun result last log h => ⟨h.sparing.mono (tryOf_le_one _ _), h.verified⟩) ?_
  intro pin1 last log hFirst hGoOn
  refine (activateSlot_puk hScheme .pin2 awaits2 fresh2).mono ?_
  intro result final rest hSecond
  rcases hGoOn with rfl | rfl
  · rw [hFirst.idle rfl]
    exact ⟨hSecond.sparing.mono (tryOf_le_one _ _), hSecond.verified⟩
  refine ⟨(hFirst.sparing.append hSecond.sparing).mono fun other => ?_, fun hNumbering =>
    (hFirst.verified hNumbering).append (hSecond.verified hNumbering)⟩
  rw [hFirst.right, hFirst.accepted rfl]
  simp [tryOf]

/-- Both PINs by the activation PIN they were shipped with: one try of each. -/
theorem activateBoth_preset (hScheme : code.scheme = .presetActivationPin) (awaits1 awaits2 : Bool)
    (fresh1 fresh2 : Option Bytes)
    (hFloor1 : awaits1 && fresh1.isSome → Floored (card.counter state .pin1))
    (hFloor2 : awaits2 && fresh2.isSome → Floored (card.counter state .pin2)) :
    Ends card.answer (activateBoth numbering code awaits1 awaits2 fresh1 fresh2) state
      fun _ _ log => CallSafe log := by
  refine activateBoth_ends (activateSlot_preset hScheme .pin1 awaits1 fresh1 hFloor1)
    (fun _ last log h => ⟨h.sparing.mono (tryOf_le_one _ _), fun _ => h.verified⟩) ?_
  intro _ last log hFirst _
  have hFloor : awaits2 && fresh2.isSome → Floored (card.counter last .pin2) :=
    fun hChanges => hFirst.others .pin2 (by decide) (hFloor2 hChanges)
  refine (activateSlot_preset hScheme .pin2 awaits2 fresh2 hFloor).mono ?_
  intro _ final rest hSecond
  refine ⟨(hFirst.sparing.append hSecond.sparing).mono fun other => ?_, fun _ =>
    hFirst.verified.append hSecond.verified⟩
  cases other <;> decide

theorem floored_of_checkActivationTries {reading changes1 changes2}
    (h : checkActivationTries .presetActivationPin reading changes1 changes2 = .ok ())
    (hPin1 : TrueOf card state .pin1 reading.pin1) (hPin2 : TrueOf card state .pin2 reading.pin2) :
    (changes1 → Floored (card.counter state .pin1)) ∧
      (changes2 → Floored (card.counter state .pin2)) := by
  have hBoth : ((if changes1 then checkLastTries .pin1 reading.pin1 else .ok ()) >>= fun _ =>
      if changes2 then checkLastTries .pin2 reading.pin2 else .ok ()) = .ok () := h
  obtain ⟨done, hFirst, hSecond⟩ := bind_eq_ok.mp hBoth
  constructor
  · rintro rfl
    exact floored_of_checkLastTries hPin1 hFirst
  · rintro rfl
    exact floored_of_checkLastTries hPin2 hSecond

/-- Activation is safe, whichever of its steps is the last. -/
theorem activateCard_ends (lengths : CardPinLengths) (hLengths : lengths.numbering = numbering)
    (code : ActivationCode) (newPin1 : Option Pin1) (newPin2 : Option Pin2) :
    Ends card.answer (activateCard lengths code newPin1 newPin2) state
      fun _ _ log => CallSafe log := by
  subst hLengths
  refine ends_bind (ends_mk.mpr ?_)
  cases checkEntryLengths lengths code newPin1 newPin2 with
  | error refusal => exact callSafe_nil
  | ok passed =>
    refine ends_bind ((reads_activation code.scheme).mono ?_)
    rintro (error | reading) last log ⟨hLog, hCounter, -, hReading⟩
    · exact callSafe_reading hLog
    obtain ⟨hPin1, hPin2⟩ := hReading reading rfl
    rw [TrueOf, ← hCounter] at hPin1 hPin2
    refine ends_bind (ends_mk.mpr ?_)
    cases hTries : checkActivationTries code.scheme reading
        (reading.needsPin1 && newPin1.isSome) (reading.needsPin2 && newPin2.isSome) with
    | error refusal => exact (callSafe_nil.after_reading hLog : CallSafe (log ++ []))
    | ok passed =>
      have hScheme : code.scheme = .activationCodeIsPuk ∨ code.scheme = .presetActivationPin := by
        cases code.scheme <;> simp
      rcases hScheme with hPuk | hPreset
      · exact (activateBoth_puk hPuk _ _ _ _).mono fun result final rest hRest =>
          (hRest.after_reading hLog : CallSafe (log ++ rest))
      rw [hPreset] at hTries
      obtain ⟨hFloor1, hFloor2⟩ := floored_of_checkActivationTries hTries hPin1 hPin2
      refine (activateBoth_preset hPreset _ _ _ _ ?_ ?_).mono
        fun result final rest hRest => (hRest.after_reading hLog : CallSafe (log ++ rest))
      · rwa [Option.isSome_map]
      · rwa [Option.isSome_map]

end Calls

section Runs
/-- A call of a session whose lengths were read under the card's numbering. -/
inductive ManageCall (numbering : PinReferenceScheme) where
  | unblockPin1 (lengths : {lengths : CardPinLengths // lengths.numbering = numbering})
      (puk : Puk) (new : Pin1)
  | unblockPin2 (lengths : {lengths : CardPinLengths // lengths.numbering = numbering})
      (puk : Puk) (new : Pin2)
  | activateCard (lengths : {lengths : CardPinLengths // lengths.numbering = numbering})
      (code : ActivationCode) (newPin1 : Option Pin1) (newPin2 : Option Pin2)

abbrev ManageResult : Type := ManageOutcome ⊕ ActivationReport

def ManageCall.program : ManageCall numbering → CardProgram E ManageResult
  | .unblockPin1 lengths puk new => Sum.inl <$> Auth.unblockPin1 lengths.val puk new
  | .unblockPin2 lengths puk new => Sum.inl <$> Auth.unblockPin2 lengths.val puk new
  | .activateCard lengths code newPin1 newPin2 =>
    Sum.inr <$> Auth.activateCard lengths.val code newPin1 newPin2

/-- One call against the card: its result with everything that passed. -/
def manageStep (card : HonestCard E numbering) (state : card.State) (call : ManageCall numbering) :
    (Except (AuthError E) ManageResult × CardLog card) × card.State :=
  let program : CardProgram E ManageResult := call.program
  (((program.run.run card.answer state).1, program.run.exchanges card.answer state),
    (program.run.run card.answer state).2)

variable {state : card.State}

variable {P : CardLog card → Prop}

/-- A program behind a check that asks nothing. -/
theorem ends_require {ε α β : Type} {wrap} {check : Except ε α}
    {next : α → CardProgram E β} (hNil : P [])
    (h : ∀ value, Ends card.answer (next value) state fun _ _ log => P log) :
    Ends card.answer (require wrap check >>= next) state fun _ _ log => P log := by
  refine ends_bind (ends_mk.mpr ?_)
  cases check with
  | error error => exact hNil
  | ok value => exact h value

variable (call : ManageCall numbering)

theorem callSafe_program :
    Ends card.answer (call.program : CardProgram E ManageResult) state
      fun _ _ log => CallSafe log := by
  have hUnblock (slot : PinSlot) (puk new : Bytes) :
      Ends card.answer (unblock numbering slot puk new) state fun _ _ log => CallSafe log :=
    (unblock_ends slot puk new).mono fun _ _ _ h =>
      ⟨h.sparing.mono (tryOf_le_one _ _), h.verified⟩
  cases call with
  | unblockPin1 lengths puk new | unblockPin2 lengths puk new =>
    obtain ⟨lengths, rfl⟩ := lengths
    exact ends_map (ends_require callSafe_nil fun _ =>
      ends_require callSafe_nil fun _ => hUnblock _ _ _)
  | activateCard lengths code newPin1 newPin2 =>
    exact ends_map (activateCard_ends lengths.val lengths.property code newPin1 newPin2)

/-- A counter of at least two stays there through a call that spares it. -/
theorem two_le_of_callSafe (hState : 2 ≤ card.counter state credential) :
    (∀ exchange ∈ (manageStep card state call).1.2, 2 ≤ card.counter exchange.next credential) ∧
      2 ≤ card.counter (manageStep card state call).2 credential := by
  have hLinked : Linked state (manageStep card state call).1.2 (manageStep card state call).2 :=
    linked_exchanges (call.program : CardProgram E ManageResult).run state
  have hSafe : CallSafe (manageStep card state call).1.2 := callSafe_program call
  refine hLinked.forall_next (P := fun state => 2 ≤ card.counter state credential) hState ?_
  intro exchange hExchange hBefore
  by_cases hLower : lowers card credential exchange
  · exact hSafe.sparing.floor exchange hExchange credential hLower
  · rw [lowers, decide_eq_true_eq, not_lt] at hLower
    exact hBefore.trans hLower

/-- Over every sequence of unblocks and activations, with any codes, a PUK that
starts with three to five tries always has two left, no call takes a counter
below two or spends more than one try of a credential, and under the
organizational numbering a call resets only after it verified the PUK. -/
theorem lockout_never_caused (card : HonestCard E numbering) (start : card.State)
    (hPuk : 3 ≤ card.counter start .puk ∧ card.counter start .puk ≤ 5)
    (calls : List (ManageCall numbering)) :
    ∀ event ∈ history (manageStep card) start calls,
      (∀ exchange ∈ event.reply.2, 2 ≤ card.counter exchange.next .puk) ∧
      (∀ exchange ∈ event.reply.2, ∀ credential,
        card.counter exchange.next credential < card.counter exchange.state credential →
          2 ≤ card.counter exchange.next credential) ∧
      (∀ credential, event.reply.2.countP (lowers card credential) ≤ 1) ∧
      (numbering = .organizational → VerifiedFirst event.reply.2) := by
  refine history_forall (manageStep card) (P := fun state => 2 ≤ card.counter state .puk)
    (by omega) ?_ ?_ calls
  · exact fun state call hState => (two_le_of_callSafe call hState).2
  intro state call hState
  have hSafe : CallSafe (manageStep card state call).1.2 := callSafe_program call
  refine ⟨(two_le_of_callSafe call hState).1, ?_, hSafe.sparing.spent, hSafe.verified⟩
  intro exchange hExchange credential hLower
  exact hSafe.sparing.floor exchange hExchange credential (decide_eq_true hLower)

end Runs

def sampleDigits : FlooredCredential → Bytes
  | .pin1 => [0x31, 0x31, 0x31, 0x31]
  | .pin2 => [0x32, 0x32, 0x32, 0x32, 0x32, 0x32]
  | .puk => [0x31, 0x32, 0x33, 0x34, 0x35, 0x36, 0x37, 0x38]

def sampleRight (credential : FlooredCredential) (block : Bytes) : Bool :=
  block.take pinStoredLength = credentialBlock .citizen (sampleDigits credential)

variable (tries : Fin 6)

/-- The counter status of so many tries. -/
def triesLeft : ResponseApdu :=
  ⟨[], 0x63, 0xC0 + UInt8.ofNat tries⟩

def oneLess : Fin 6 :=
  ⟨tries - 1, lt_of_le_of_lt (sub_le _ _) tries.isLt⟩

def sampleAnswer (state : FlooredCredential → Fin 6) :
    CardRequest → Except TransportErrorKind TransportOutcome × (FlooredCredential → Fin 6)
  | .transmit command =>
    match [FlooredCredential.pin1, .pin2, .puk].find? fun credential =>
        command = statusProbe (credential.reference .citizen) with
    | some credential => (.ok (.response (triesLeft (state credential))), state)
    | none => (.ok (.response ⟨[], 0x6A, 0x88⟩), state)
  | .transmitCredential command =>
    match presents .citizen command with
    | none => (.ok (.response ⟨[], 0x6D, 0x00⟩), state)
    | some (credential, block) =>
      if sampleRight credential block ∧ 0 < state credential then
        (.ok (.response ⟨[], 0x90, 0x00⟩), Function.update state credential 5)
      else
        (.ok (.response (triesLeft (oneLess (state credential)))),
          Function.update state credential (oneLess (state credential)))

theorem triesLeft_status :
    Truthful 5 tries (classifyPinStatusSw (triesLeft tries).statusWord) ∧
      (triesLeft tries).statusWord ≠ .success := by
  have hAll : ∀ tries : Fin 6, ∃ retries, (triesLeft tries).statusWord = .pinIncorrect retries ∧
      retries.get.toNat = tries := by
    intro tries
    match tries with
    | 0 | 1 | 2 | 3 | 4 | 5 => exact ⟨_, rfl, rfl⟩
  obtain ⟨retries, hWord, hCount⟩ := hAll tries
  rw [hWord]
  exact ⟨hCount, StatusWord.noConfusion⟩

def sampleCard : HonestCard TransportErrorKind .citizen where
  State := FlooredCredential → Fin 6
  answer := sampleAnswer
  counter := fun state credential => state credential
  limit := fun _ => 5
  right := fun _ => sampleRight
  limit_ge := fun _ => by decide
  counter_le := fun state credential => le_of_lt_succ (state credential).isLt
  read_counter := by
    intro state command
    rw [sampleAnswer]
    split <;> rfl
  read_right := fun _ _ => rfl
  probe_truthful := by
    intro state credential response hResponse
    have hFound : [FlooredCredential.pin1, .pin2, .puk].find? (fun other =>
        statusProbe (credential.reference .citizen) = statusProbe (other.reference .citizen)) =
        some credential := by
      cases credential <;> decide
    rw [sampleAnswer, hFound] at hResponse
    cases hResponse
    exact (triesLeft_status (state credential)).1
  container_truthful := by
    intro state query response hQuery hResponse
    cases hQuery
    cases hResponse
    exact trivial
  presented := by
    intro state command credential block hPresents
    rw [sampleAnswer, hPresents]
    have hUpdate (tries : Fin 6) :
        (fun other => ((Function.update state credential tries other : Fin 6) : Nat)) =
          Function.update (fun other => (state other : Nat)) credential tries := by
      funext other
      by_cases hOther : other = credential
      · rw [hOther, update_self, update_self]
      · rw [update_of_ne hOther, update_of_ne hOther]
    dsimp only
    split_ifs with hRight
    · rw [hUpdate]
      refine .inr (.inr ⟨hRight.1, hRight.2, update_self .., fun other => ?_⟩)
      by_cases hOther : other = credential
      · exact .inr (hOther ▸ update_self ..)
      · exact .inl (update_of_ne hOther ..)
    · refine .inr (.inl ⟨hRight, ?_, hUpdate _⟩)
      rintro ⟨response, hResponse, hSuccess⟩
      cases hResponse
      exact (triesLeft_status _).2 hSuccess
  other_credential := by
    intro state command hPresents credential
    rw [sampleAnswer, hPresents]
    exact .inl rfl
  puk_kept := fun _ _ => rfl

def wrongUnblock : ManageCall .citizen :=
  .unblockPin1 ⟨⟨.citizen, ⟨new 4 12⟩, ⟨new 6 12⟩,
      ⟨new 8 12⟩⟩, rfl⟩
    ⟨⟨replicate 8 0x39, by decide, by decide, by decide,
      fun _ h => eq_of_mem_replicate h ▸ (by decide)⟩⟩
    ⟨⟨replicate 4 0x30, by decide, by decide, by decide,
      fun _ h => eq_of_mem_replicate h ▸ (by decide)⟩⟩

/-- Three wrong PUKs in a row spend one try and then another; the third is not
sent. -/
theorem wrongUnblock_spares_puk : (∀ event ∈ history (manageStep sampleCard) (fun _ => 4)
        [wrongUnblock, wrongUnblock, wrongUnblock],
      ∀ exchange ∈ event.reply.2, 2 ≤ sampleCard.counter exchange.next .puk) ∧
      sampleCard.counter (final (manageStep sampleCard) (fun _ => 4)
        [wrongUnblock, wrongUnblock, wrongUnblock]) .puk = 2 :=
  ⟨fun event hEvent => (lockout_never_caused sampleCard (fun _ => 4) (by decide)
    [wrongUnblock, wrongUnblock, wrongUnblock] event hEvent).1, by decide +kernel⟩

end RefineId.Auth
