import RefineId.Pace.CardChannel

/-! Sessions of a terminal and a card over secure messaging. The session keeps
every input that either end has computed a tag over; a delivered answer is a
forgery if its tag is right for an input outside that list. -/
namespace RefineId.Pace

open Data Apdu Ber List Nat Ssc SmTransport

/-- A command for the card and what the card answers. -/
structure Exchange where
  plain : Bytes
  answer : ResponseApdu
  deriving DecidableEq

/-- Both ends and what they have authenticated, latest first. -/
structure Session where
  terminal : SmTransport
  card : SmTransport
  authenticated : List Bytes

/-- An exchange whose answer is on its way to the terminal. -/
structure InFlight where
  received : ReceivedCommand
  response : Bytes
  session : Session

variable {E : Type}

section Session
variable (aes : Aes)

def Session.send (session : Session) (exchange : Exchange) : Except (SmError E) InFlight :=
  match session.terminal.wrap aes exchange.plain with
  | (.error error, _) => .error error
  | (.ok (header, body), terminal) =>
    match session.card.receive aes header body with
    | (.error error, _) => .error error
    | (.ok received, card) =>
      match card.respond aes received.header.instruction exchange.answer with
      | (.error error, _) => .error error
      | (.ok response, answered) =>
        .ok ⟨received, response, terminal, answered,
          iso78164Pad (answered.ssc.asBytes.val ++ beforeMac response) ::
            commandMacInput terminal.ssc header (beforeMac body) :: session.authenticated⟩

def InFlight.deliver (flight : InFlight) (delivered : ResponseApdu) :
    Except (SmError E) TransportOutcome × Session :=
  let (outcome, terminal) := flight.session.terminal.finish aes (.response delivered)
  (outcome, { flight.session with terminal })

/-- An exchange in which the card's answer arrives. -/
def Session.exchange (session : Session) (exchange : Exchange) :
    Except (SmError E) ((ReceivedCommand × TransportOutcome) × Session) := do
  let flight ← session.send aes exchange
  match flight.deliver aes ⟨flight.response, exchange.answer.sw1, exchange.answer.sw2⟩ with
  | (.error error, _) => .error error
  | (.ok outcome, session) => .ok ((flight.received, outcome), session)

/-- Exchanges one after another: what the card recovered and what the terminal
was told, and the session after them. -/
def Session.run : Session → List Exchange →
    Except (SmError E) (List (ReceivedCommand × TransportOutcome) × Session)
  | session, [] => .ok ([], session)
  | session, exchange :: rest => do
      let (report, session) ← session.exchange aes exchange
      let (reports, session) ← session.run rest
      .ok (report :: reports, session)

/-- A new session of two ends that agree. -/
def Session.start (channel : SmTransport) : Session :=
  ⟨channel, channel, []⟩

/-- A tag that is right for the delivered objects was computed by one of the
two ends. -/
def Unforged (E : Type) (channel : SmTransport) (authenticated : List Bytes)
    (delivered : Bytes) : Prop :=
  ∀ found input, protectedResponse delivered = (.ok found : Except (SmError E) _) →
    responseMacInput channel.ssc found = (.ok input : Except (SmError E) Bytes) →
    aes256CmacTruncated aes channel.kMac input = found.mac → input ∈ authenticated

end Session

section Step
variable {aes : Aes}

theorem iso78164Pad_take (ssc : Ssc) (rest : Bytes) :
    (iso78164Pad (ssc.asBytes.val ++ rest)).take aesBlock = ssc.asBytes.val := by
  rw [iso78164Pad, fillBlock, append_assoc, append_assoc, take_left' ssc.asBytes.length_val]

/-- The terminal and the card agree on keys and counter. -/
def Session.Agrees (session : Session) : Prop :=
  session.terminal = session.card

/-- An exchange the channel can carry: a command that `wrap` accepts and an
answer whose length can be encoded. -/
structure Exchange.Carried (E : Type) (aes : Aes) (exchange : Exchange) : Prop where
  wrapped : ∃ channel wrapped, (wrap aes channel exchange.plain).1 =
    (.ok wrapped : Except (SmError E) _)
  short : exchange.answer.body.length + 17 < 2 ^ 32

/-- What sending does when both ends agree: the card recovers the command, its
answer is genuine, and each end has moved as far as it should. -/
structure Sent (E : Type) (aes : Aes) (session : Session) (exchange : Exchange)
    (flight : InFlight) : Prop where
  received : plainCommand exchange.plain = some flight.received
  terminal : flight.session.terminal = session.terminal.stepped
  card : flight.session.card = session.terminal.stepped.stepped
  genuine : ∃ found input, Genuine E aes session.terminal.stepped.stepped
    exchange.answer flight.response found input ∧
    ∃ command, command.take aesBlock = session.terminal.stepped.ssc.asBytes.val ∧
      input.take aesBlock = session.terminal.stepped.stepped.ssc.asBytes.val ∧
      flight.session.authenticated = input :: command :: session.authenticated

variable {session : Session} {exchange : Exchange}

theorem send_carried (hAgrees : session.Agrees) (hCarried : exchange.Carried E aes) :
    ∃ flight, session.send aes exchange = (.ok flight : Except (SmError E) _) ∧
      Sent E aes session exchange flight := by
  obtain ⟨⟨channel, wrapped, hWrapped⟩, hShort⟩ := hCarried
  obtain ⟨command, hCommand⟩ := plainCommand_of_wrap hWrapped
  obtain ⟨body, hWrap, hProtect⟩ := wrap_of_command E aes session.terminal hCommand
  have hReceive : session.card.receive aes command.header body =
      ((.ok command : Except (SmError E) _), session.terminal.stepped) := by
    rw [receive, ← hAgrees, openCommand_protectCommand hProtect]
  obtain ⟨response, hResponse, found, hGenuine⟩ := protectAnswer_accepted E aes
    session.terminal.stepped.stepped command.header.instruction hShort
  refine ⟨⟨command, response, session.terminal.stepped, session.terminal.stepped.stepped,
    iso78164Pad (session.terminal.stepped.stepped.ssc.asBytes.val ++ beforeMac response) ::
      commandMacInput session.terminal.stepped.ssc command.header (beforeMac body) ::
      session.authenticated⟩, ?_, hCommand, rfl, rfl, found, _, hGenuine, _,
    by rw [commandMacInput, append_assoc, iso78164Pad_take], iso78164Pad_take _ _, rfl⟩
  rw [Session.send, hWrap]
  simp only [hReceive, respond, hResponse]

variable {delivered : ResponseApdu} {outcome : TransportOutcome}

/-- What is delivered counts as far as it can be opened. The status word outside
the protection is not looked at. -/
theorem finish_eq_ok {channel : SmTransport} : (channel.finish aes (.response delivered)).1 =
        (.ok outcome : Except (SmError E) _) ↔
      ∃ result, channel.stepped.openResponse aes delivered.body =
          (.ok result : Except (SmError E) _) ∧
        outcome = .response ⟨result.1, (u16BeBytes result.2.asU16).1,
          (u16BeBytes result.2.asU16).2⟩ := by
  rw [finish]
  split
  · rename_i hEmpty
    have hNothing : channel.stepped.openResponse aes delivered.body =
        (.error (.malformed "no protected status object") : Except (SmError E) _) := by
      rw [hEmpty]
      rfl
    simp [hNothing]
  · rw [unwrap]
    cases channel.stepped.openResponse aes delivered.body with
    | error error => simp
    | ok result => simp [eq_comm]

variable {flight : InFlight}

theorem Sent.deliver (h : Sent E aes session exchange flight) (sw1 sw2 : UInt8) :
    flight.deliver aes ⟨flight.response, sw1, sw2⟩ =
      ((.ok (.response exchange.answer) : Except (SmError E) _),
        { flight.session with terminal := session.terminal.stepped.stepped }) := by
  obtain ⟨found, input, hGenuine, -⟩ := h.genuine
  rw [InFlight.deliver, h.terminal, hGenuine.finish]

/-- Where both ends stand after a number of exchanges, and which counter value
each authenticated input begins with. -/
structure Session.After (start : SmTransport) (count : Nat) (session : Session) : Prop where
  terminal : session.terminal = { start with ssc := start.ssc.advance (2 * count) }
  agrees : session.Agrees
  stamped : ∀ input ∈ session.authenticated, ∃ steps, 0 < steps ∧ steps ≤ 2 * count ∧
    input.take aesBlock = (start.ssc.advance steps).asBytes.val

section After
variable {start : SmTransport} {count : Nat}

theorem Session.After.stepped_ssc (h : session.After start count) :
    session.terminal.stepped.ssc = start.ssc.advance (2 * count + 1) := by
  rw [SmTransport.stepped_ssc, h.terminal, advance_succ]

theorem Session.After.stepped_stepped (h : session.After start count) :
    session.terminal.stepped.stepped = { start with ssc := start.ssc.advance (2 * (count + 1)) } := by
  rw [h.terminal, mul_succ, advance_succ, advance_succ]
  rfl

/-- After sending, the new inputs begin with the next two counter values. -/
theorem Sent.stamped (hSent : Sent E aes session exchange flight) (h : session.After start count) :
    ∀ input ∈ flight.session.authenticated, ∃ steps, 0 < steps ∧ steps ≤ 2 * (count + 1) ∧
      input.take aesBlock = (start.ssc.advance steps).asBytes.val := by
  obtain ⟨-, input, -, command, hCommand, hInput, hLog⟩ := hSent.genuine
  intro other hOther
  rw [hLog] at hOther
  rcases mem_cons.mp hOther with rfl | hOther
  · refine ⟨2 * (count + 1), by omega, le_refl _, ?_⟩
    rw [hInput, h.stepped_stepped]
  rcases mem_cons.mp hOther with rfl | hOther
  · refine ⟨2 * count + 1, by omega, by omega, ?_⟩
    rw [hCommand, h.stepped_ssc]
  · obtain ⟨steps, hPos, hLe, hTake⟩ := h.stamped other hOther
    exact ⟨steps, hPos, by omega, hTake⟩

theorem exchange_carried (h : session.After start count) (hCarried : exchange.Carried E aes) :
    ∃ command next, plainCommand exchange.plain = some command ∧ session.exchange aes exchange =
        (.ok ((command, .response exchange.answer), next) : Except (SmError E) _) ∧
      next.After start (count + 1) := by
  obtain ⟨flight, hSend, hSent⟩ := send_carried h.agrees hCarried
  refine ⟨flight.received, { flight.session with terminal := session.terminal.stepped.stepped },
    hSent.received, ?_, ?_, ?_, hSent.stamped h⟩
  · rw [Session.exchange, hSend]
    simp only [ok_bind, hSent.deliver]
  · exact h.stepped_stepped
  · exact hSent.card.symm

/-- A run of the channel: what the card recovered is what each command asked
for, and the terminal was told what the card answered. -/
theorem run_carried {exchanges} (h : session.After start count)
    (hCarried : ∀ exchange ∈ exchanges, exchange.Carried E aes) :
    ∃ reports last, session.run aes exchanges =
        (.ok (reports, last) : Except (SmError E) _) ∧
      reports.map (fun report => (some report.1, report.2)) = exchanges.map (fun exchange =>
          (plainCommand exchange.plain, .response exchange.answer)) ∧
      last.After start (count + exchanges.length) := by
  induction exchanges generalizing session count with
  | nil => exact ⟨[], session, rfl, rfl, h⟩
  | cons exchange rest ih =>
    obtain ⟨command, next, hCommand, hExchange, hNext⟩ :=
      exchange_carried h (hCarried exchange (mem_cons_self ..))
    obtain ⟨reports, last, hRun, hReports, hLast⟩ :=
      ih hNext fun other hOther => hCarried other (mem_cons_of_mem _ hOther)
    refine ⟨(command, .response exchange.answer) :: reports, last, ?_, ?_, ?_⟩
    · rw [Session.run, hExchange]
      simp only [ok_bind, hRun]
    · rw [map_cons, map_cons, hReports, hCommand]
    · rw [length_cons, add_comm rest.length, ← add_assoc]
      exact hLast

section
variable (hSent : Sent E aes session exchange flight)
include hSent

/-- An accepted answer has the objects of the card's own, because no other
input under this counter value was ever authenticated. -/
theorem Sent.deliver_eq_ok (h : session.After start count) (hPeriod : count < 2 ^ 127)
    (hUnforged : Unforged aes E flight.session.terminal.stepped
      flight.session.authenticated delivered.body) :
    (flight.deliver aes delivered).1 = (.ok outcome : Except (SmError E) _) ↔
      protectedResponse delivered.body =
          (protectedResponse flight.response : Except (SmError E) _) ∧
        outcome = .response exchange.answer := by
  obtain ⟨found, input, hGenuine, command, hCommand, -, hLog⟩ := hSent.genuine
  rw [InFlight.deliver, finish_eq_ok]
  rw [hSent.terminal] at hUnforged ⊢
  constructor
  · rintro ⟨⟨body, sw⟩, hOpen, rfl⟩
    obtain ⟨other, otherInput, hRead, hAuthenticates, hTag, hBody, hStatus⟩ :=
      openResponse_eq_ok.mp hOpen
    have hKnown := hUnforged other otherInput hRead hAuthenticates hTag
    have hPrefix : otherInput.take aesBlock =
        (start.ssc.advance (2 * (count + 1))).asBytes.val := by
      obtain ⟨-, -, rfl⟩ := responseMacInput_eq_ok.mp hAuthenticates
      rw [iso78164Pad_take, h.stepped_stepped]
    have hSame : otherInput = input := by
      rw [hLog] at hKnown
      rcases mem_cons.mp hKnown with hSame | hOther
      · exact hSame
      exfalso
      obtain ⟨steps, hPos, hLe, hTake⟩ : ∃ steps, 0 < steps ∧ steps ≤ 2 * count + 1 ∧
          otherInput.take aesBlock = (start.ssc.advance steps).asBytes.val := by
        rcases mem_cons.mp hOther with rfl | hOther
        · exact ⟨2 * count + 1, by omega, le_refl _, by rw [hCommand, h.stepped_ssc]⟩
        · obtain ⟨steps, hPos, hLe, hTake⟩ := h.stamped otherInput hOther
          exact ⟨steps, hPos, by omega, hTake⟩
      have hCounter : start.ssc.advance steps = start.ssc.advance (2 * (count + 1)) := by
        have hBytes := Subtype.ext (hTake.symm.trans hPrefix)
        exact congrArg Ssc.mk hBytes
      have hValue := congrArg Ssc.value hCounter
      rw [Ssc.value_advance, Ssc.value_advance] at hValue
      omega
    subst hSame
    obtain ⟨hCryptogram, hSw1, hSw2⟩ := responseMacInput_inj hAuthenticates hGenuine.authenticates
    have hFound : other = found :=
      ProtectedResponse.ext hCryptogram hSw1 hSw2 (hTag.symm.trans hGenuine.tag)
    subst hFound
    refine ⟨hRead.trans hGenuine.read.symm, ?_⟩
    have hData : body = exchange.answer.body :=
      Except.ok.inj (hBody.symm.trans hGenuine.opens)
    have hWord : sw = exchange.answer.statusWord := by
      rw [show sw = _ from hStatus, hGenuine.sw1, hGenuine.sw2]
      rfl
    rw [hData, hWord, response_of_status]
  · rintro ⟨hRead, rfl⟩
    refine ⟨(exchange.answer.body, exchange.answer.statusWord), ?_,
      (response_of_status exchange.answer).symm⟩
    have hDelivered : Genuine E aes session.terminal.stepped.stepped exchange.answer
        delivered.body found input :=
      { hGenuine with read := hRead.trans hGenuine.read }
    exact hDelivered.openResponse

/-- The card's own answer is no forgery, whatever status word surrounds it. -/
theorem Sent.unforged :
    Unforged aes E flight.session.terminal.stepped flight.session.authenticated
      flight.response := by
  obtain ⟨found, input, hGenuine, command, -, -, hLog⟩ := hSent.genuine
  intro other otherInput hRead hAuthenticates _
  obtain rfl := Except.ok.inj (hGenuine.read.symm.trans hRead)
  rw [hSent.terminal] at hAuthenticates
  obtain rfl := Except.ok.inj (hGenuine.authenticates.symm.trans hAuthenticates)
  rw [hLog]
  exact mem_cons_self ..

end

end After

end Step

/-- Over any number of exchanges the card recovers every command and the
terminal every answer, and both counters stay equal. In the next exchange a
delivered answer that is no forgery is refused, unless its objects, the last of
each kind, are those of the card's answer. Then it is taken for that answer. -/
theorem secure_channel_delivers (E : Type) (aes : Aes) (start : SmTransport)
    (exchanges : List Exchange) (hCarried : ∀ exchange ∈ exchanges, exchange.Carried E aes) :
    ∃ reports session, (Session.start start).run aes exchanges =
        (.ok (reports, session) : Except (SmError E) _) ∧
      reports.map (fun report => (some report.1, report.2)) = exchanges.map (fun exchange =>
          (plainCommand exchange.plain, .response exchange.answer)) ∧
      session.terminal = session.card ∧
      ∀ next : Exchange, next.Carried E aes → exchanges.length < 2 ^ 127 →
        ∃ flight, session.send aes next = (.ok flight : Except (SmError E) _) ∧
          plainCommand next.plain = some flight.received ∧
          ∀ delivered : ResponseApdu, Unforged aes E flight.session.terminal.stepped
              flight.session.authenticated delivered.body →
            ∀ outcome, (flight.deliver aes delivered).1 =
                (.ok outcome : Except (SmError E) _) ↔
              protectedResponse delivered.body =
                  (protectedResponse flight.response : Except (SmError E) _) ∧
                outcome = .response next.answer := by
  have hStart : (Session.start start).After start 0 := ⟨rfl, rfl, by simp [Session.start]⟩
  obtain ⟨reports, session, hRun, hReports, hAfter⟩ := run_carried hStart hCarried
  rw [zero_add] at hAfter
  refine ⟨reports, session, hRun, hReports, hAfter.agrees, fun next hNext hPeriod => ?_⟩
  obtain ⟨flight, hSend, hSent⟩ := send_carried hAfter.agrees hNext
  exact ⟨flight, hSend, hSent.received, fun delivered hUnforged outcome =>
    hSent.deliver_eq_ok hAfter hPeriod hUnforged⟩

/-- The cipher that hides nothing, with the last block of a message as its tag. -/
def Aes.transparent : Aes where
  block _ := Equiv.refl AesBlock
  cmac _ message := ⟨beBytes aesBlock (beValue message), beBytes_length _ _⟩

def zeroChannel : SmTransport :=
  ⟨.replicate aesKeyLen 0, .replicate aesKeyLen 0, .initial⟩

def readOneByte : Exchange :=
  ⟨[0x00, 0xB0, 0x00, 0x00, 0x01], ⟨[0xAA], 0x90, 0x00⟩⟩

theorem readOneByte_carried : readOneByte.Carried Empty Aes.transparent :=
  ⟨⟨zeroChannel, _, rfl⟩, by decide⟩

theorem secure_channel_delivers_readOneByte :
    ∃ reports session flight, (Session.start zeroChannel).run Aes.transparent [readOneByte] =
        (.ok (reports, session) : Except (SmError Empty) _) ∧
      session.send Aes.transparent readOneByte = (.ok flight : Except (SmError Empty) _) ∧
      (flight.deliver Aes.transparent ⟨flight.response, 0x6F, 0x00⟩).1 =
        (.ok (.response readOneByte.answer) : Except (SmError Empty) _) := by
  obtain ⟨reports, session, hRun, -, hAgrees, hNext⟩ :=
    secure_channel_delivers Empty Aes.transparent zeroChannel [readOneByte]
      (by simp [readOneByte_carried])
  obtain ⟨flight, hSend, -, hDelivered⟩ := hNext readOneByte readOneByte_carried (by decide)
  obtain ⟨other, hOther, hSent⟩ := send_carried hAgrees readOneByte_carried
  obtain rfl := Except.ok.inj (hSend.symm.trans hOther)
  exact ⟨reports, session, flight, hRun, hSend,
    (hDelivered ⟨flight.response, 0x6F, 0x00⟩ hSent.unforged _).mpr ⟨rfl, rfl⟩⟩

/-- The status object ahead of the cryptogram is not the card's answer, and is
accepted as it. The class byte of a command never reaches the card. -/
theorem reordered_answer_accepted :
    (∃ flight, (Session.start zeroChannel).send Aes.transparent readOneByte =
        (.ok flight : Except (SmError Empty) _) ∧
      flight.response = [0x87, 17, 1, 0xAA, 0x80, 0, 0, 0, 0, 0, 0, 0, 0, 0, 0, 0, 0, 0, 2] ++
          [0x99, 2, 0x90, 0x00] ++ [0x8E, 8, 0, 0, 2, 0x99, 2, 0x90, 0x00, 0x80] ∧
      (flight.deliver Aes.transparent ⟨[0x99, 2, 0x90, 0x00] ++
          [0x87, 17, 1, 0xAA, 0x80, 0, 0, 0, 0, 0, 0, 0, 0, 0, 0, 0, 0, 0, 2] ++
          [0x8E, 8, 0, 0, 2, 0x99, 2, 0x90, 0x00, 0x80], 0x90, 0x00⟩).1 =
        (.ok (.response ⟨[0xAA], 0x90, 0x00⟩) : Except (SmError Empty) _)) ∧
    (zeroChannel.wrap Aes.transparent [0x10, 0xB0, 0x00, 0x00, 0x01] :
        Except (SmError Empty) _ × SmTransport) =
      zeroChannel.wrap Aes.transparent [0x00, 0xB0, 0x00, 0x00, 0x01] :=
  ⟨⟨_, rfl, rfl, rfl⟩, rfl⟩

end RefineId.Pace
