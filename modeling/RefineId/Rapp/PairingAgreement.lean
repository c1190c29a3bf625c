import RefineId.Rapp.PairingRun

/-! A requester and a custodian pairing over one authenticated channel. The
network hands any frame to either side at any time; the sides make their
calls in any order. -/
namespace RefineId.Rapp

open Data Semantics Function List Option PairingPhase
open PairingStorage SecureChannel TypedMessage

variable {S : Type}

def EndpointRole.peer : EndpointRole → EndpointRole
  | .requester => .proxy
  | .proxy => .requester

/-- Both endpoints, and what the channel of each has written; that outlives
an endpoint that is gone. -/
structure PairingLink (S : Type) where
  party : EndpointRole → PairingPhase (Recorded S)
  written : EndpointRole → List (Bytes × Bytes)

/-- What the handshake left both sides with: the same offer and transcript. -/
structure PairingTerms where
  sessionId : SessionId
  pairId : PairId
  offerHash : FixedBytes 32
  candidate : TransportCandidate
  offered : List ProfileName
  keys : EndpointRole → PairKeyMaterial
  remote : EndpointRole → StaticKey

def SecureChannel.writtenOr (fallback : List (Bytes × Bytes)) :
    Option (SecureChannel (Recorded S)) → List (Bytes × Bytes)
  | some ⟨.snow state, _⟩ => state.written
  | _ => fallback

abbrev PairingLinkEvent (S : Type) :=
  Event (PairingLink S) (EndpointRole × PairingCall) PairingReply

namespace PairingLink

def start (terms : PairingTerms) (library : EndpointRole → S) : PairingLink S where
  party role :=
    .confirming (.start role terms.pairId terms.offerHash terms.candidate terms.offered
      (terms.keys role) (terms.remote role)
      ⟨.snow ⟨library role, [], 0⟩, SequenceGuard.new terms.sessionId⟩)
  written _ := []

def replace (link : PairingLink S) (role : EndpointRole) (phase : PairingPhase (Recorded S))
    (written : List (Bytes × Bytes)) : PairingLink S where
  party := Function.update link.party role phase
  written := Function.update link.written role written

def step (provider : Provider S) (sha256 : Bytes → GrantsHash) (link : PairingLink S)
    (call : EndpointRole × PairingCall) : PairingReply × PairingLink S :=
  match (link.party call.1).step (provider.authenticated (link.written call.1.peer)) sha256
      call.2 with
  | (reply, phase) =>
    (reply, link.replace call.1 phase (SecureChannel.writtenOr (link.written call.1) phase.channel))

section Replace
variable (link : PairingLink S) (role : EndpointRole) (phase : PairingPhase (Recorded S))
  (written : List (Bytes × Bytes))

@[simp] theorem replace_party_self : (link.replace role phase written).party role = phase :=
  update_self ..

@[simp] theorem replace_written_self : (link.replace role phase written).written role = written :=
  update_self ..

variable {role}

/-- What holds of the new side, and of the other side before, holds of both. -/
theorem forall_replace {P : EndpointRole → PairingPhase (Recorded S) → List (Bytes × Bytes) → Prop}
    (hSelf : P role phase written)
    (hOther : ∀ other, other ≠ role → P other (link.party other) (link.written other))
    (other : EndpointRole) :
    P other ((link.replace role phase written).party other)
      ((link.replace role phase written).written other) := by
  by_cases hRole : other = role
  · subst hRole
    rw [replace_party_self, replace_written_self]
    exact hSelf
  have hParty : (link.replace role phase written).party other = link.party other :=
    update_of_ne hRole ..
  have hWritten : (link.replace role phase written).written other = link.written other :=
    update_of_ne hRole ..
  rw [hParty, hWritten]
  exact hOther other hRole

end Replace

variable (role : EndpointRole)

variable (event : PairingLinkEvent S)

def saidBy : Option TypedMessage :=
  if event.call.1 = role then
    PairingPhase.spoken (event.state.party role) event.call.2 event.reply
  else none

/-- The record one side's `into_storage` returned. -/
def recordBy : Option PairRecord :=
  match event.reply with
  | .record (.ok record) => if event.call.1 = role then some record else none
  | _ => none

/-- One side accepted its peer's `pairing.stored`. -/
def heardStoredBy : Option Unit :=
  match event.reply with
  | .stored (.ok ()) => if event.call.1 = role then some () else none
  | _ => none

def said (past : List (PairingLinkEvent S)) : List TypedMessage :=
  past.filterMap (saidBy role)

def records (past : List (PairingLinkEvent S)) : List PairRecord :=
  past.filterMap (recordBy role)

def heardStored (past : List (PairingLinkEvent S)) : List Unit :=
  past.filterMap (heardStoredBy role)

def grantsOf : TypedMessage → Option (List ProfileName)
  | .pairingConfirm confirm => some confirm.grantedProfiles
  | _ => none

def confirms (past : List (PairingLinkEvent S)) : List (List ProfileName) :=
  (said role past).filterMap grantsOf

variable {past : List (PairingLinkEvent S)} {role : EndpointRole} {message : TypedMessage}
  {record : PairRecord}

section Readings
variable (e : PairingLinkEvent S)

theorem said_append : said role (past ++ [e]) = said role past ++ (saidBy role e).toList :=
  filterMap_append_singleton (saidBy role) e

theorem records_append :
    records role (past ++ [e]) = records role past ++ (recordBy role e).toList :=
  filterMap_append_singleton (recordBy role) e

theorem confirms_append : confirms role (past ++ [e]) =
      confirms role past ++ ((saidBy role e).bind grantsOf).toList := by
  rw [confirms, said_append, filterMap_append, confirms]
  cases saidBy role e with
  | none => rfl
  | some message => cases hGrants : grantsOf message <;> simp [hGrants]

theorem said_grows : said role past ⊆ said role (past ++ [e]) := by
  rw [said_append]
  exact subset_append_left _ _

theorem confirms_grows : confirms role past ⊆ confirms role (past ++ [e]) := by
  rw [confirms_append]
  exact subset_append_left _ _

theorem records_grows (h : records role past ≠ []) : records role (past ++ [e]) ≠ [] := by
  rw [records_append]
  exact append_ne_nil_of_left_ne_nil h _

theorem heardStored_grows (h : heardStored role past ≠ []) :
    heardStored role (past ++ [e]) ≠ [] := by
  rw [heardStored, filterMap_append_singleton]
  exact append_ne_nil_of_left_ne_nil h _

theorem caller_of_saidBy (h : saidBy role e = some message) : e.call.1 = role := by
  by_contra hOther
  rw [saidBy, if_neg hOther] at h
  cases h

theorem caller_of_recordBy (h : recordBy role e = some record) : e.call.1 = role := by
  unfold recordBy at h
  split at h
  · by_contra hOther
    rw [if_neg hOther] at h
    cases h
  · cases h

theorem readings_failed (h : e.reply.succeeded = false) :
    saidBy role e = none ∧ recordBy role e = none := by
  obtain ⟨link, ⟨caller, call⟩, reply⟩ := e
  constructor
  · rw [saidBy, spoken_failed _ _ h, ite_self]
  unfold recordBy
  split
  · rename_i hReply
    cases hReply
    exact Bool.noConfusion (h : true = false)
  · rfl

end Readings

/-- One side was told by its peer that the record is stored, and told it so. -/
structure Acknowledged (terms : PairingTerms) (past : List (PairingLinkEvent S))
    (role : EndpointRole) : Prop where
  sent : .pairingStored ⟨terms.pairId⟩ ∈ said role past
  heard : heardStored role past ≠ []
  peerSent : .pairingStored ⟨terms.pairId⟩ ∈ said role.peer past
  peerStored : records role.peer past ≠ []

/-- What a record has to do with the confirmations of both sides. -/
structure RecordHolds (terms : PairingTerms) (sha256 : Bytes → GrantsHash)
    (past : List (PairingLinkEvent S)) (role : EndpointRole) (record : PairRecord) : Prop where
  pairId : record.pairId = terms.pairId
  side : record.role = role
  unconfirmed : record.storageConfirmed = false
  grantsHash : computeGrantsHash sha256 record.profiles = .ok record.grantsHash
  ours : record.profiles ∈ confirms role past
  theirs : record.profiles ∈ confirms role.peer past

/-- What the state of one side has to do with the past. -/
def PhaseHolds (terms : PairingTerms) (past : List (PairingLinkEvent S)) (role : EndpointRole) :
    PairingPhase (Recorded S) → Prop
  | .confirming pairing =>
    pairing.pairId = terms.pairId ∧ pairing.role = role ∧ pairing.offeredProfiles = terms.offered ∧
      confirms role past = pairing.localGrants.toList ∧
      ∀ grants, pairing.peerGrants = some grants → grants ∈ confirms role.peer past
  | .storing storage =>
    storage.pairId = terms.pairId ∧ records role past ≠ [] ∧
      (storage.localStoredSent = true → .pairingStored ⟨terms.pairId⟩ ∈ said role past) ∧
      (storage.peerStored = true → heardStored role past ≠ [] ∧
        .pairingStored ⟨terms.pairId⟩ ∈ said role.peer past)
  | .active pairing => pairing.pairId = terms.pairId ∧ Acknowledged terms past role
  | .gone => True

/-- The past of a run and the link it has reached fit together. -/
structure Consistent (terms : PairingTerms) (sha256 : Bytes → GrantsHash)
    (past : List (PairingLinkEvent S)) (link : PairingLink S) : Prop where
  wrote : ∀ role channel, (link.party role).channel = some channel →
    channel.Wrote (link.written role)
  carried : ∀ role, ∀ entry ∈ link.written role, entry.2.length ≤ maxFrameSize →
    ∃ message ∈ said role past, Carries entry.1 message
  granted : ∀ role, ∀ grants ∈ confirms role past, Granted terms.offered grants
  once : ∀ role, (confirms role past).length ≤ 1
  reported : ∀ role stored, .pairingStored stored ∈ said role past → records role past ≠ []
  built : ∀ role, ∀ record ∈ records role past, RecordHolds terms sha256 past role record
  phase : ∀ role, PhaseHolds terms past role (link.party role)

variable {terms : PairingTerms} {sha256 : Bytes → GrantsHash} {link : PairingLink S}
  {phase : PairingPhase (Recorded S)} {after : List (Bytes × Bytes)} {frame : BinaryFrame}
  {grants : List ProfileName} {nowMs createdAtMs : UInt64}

section Step
variable {e : PairingLinkEvent S}

theorem Acknowledged.grow (h : Acknowledged terms past role) (e : PairingLinkEvent S) :
    Acknowledged terms (past ++ [e]) role :=
  ⟨said_grows e h.sent, heardStored_grows e h.heard, said_grows e h.peerSent,
    records_grows e h.peerStored⟩

theorem RecordHolds.grow (h : RecordHolds terms sha256 past role record) (e : PairingLinkEvent S) :
    RecordHolds terms sha256 (past ++ [e]) role record :=
  { h with ours := confirms_grows e h.ours, theirs := confirms_grows e h.theirs }

/-- A side that said nothing stands as it did. -/
theorem PhaseHolds.grow (h : PhaseHolds terms past role phase) (hSilent : saidBy role e = none) :
    PhaseHolds terms (past ++ [e]) role phase := by
  cases phase with
  | confirming pairing =>
    obtain ⟨hPair, hRole, hOffered, hLocal, hPeer⟩ := h
    refine ⟨hPair, hRole, hOffered, ?_, fun grants hGrants =>
      confirms_grows e (hPeer grants hGrants)⟩
    rw [confirms_append, hSilent, hLocal]
    simp
  | storing storage =>
    obtain ⟨hPair, hRecord, hSent, hPeer⟩ := h
    refine ⟨hPair, records_grows e hRecord, fun h => said_grows e (hSent h), fun h => ?_⟩
    obtain ⟨hHeard, hSaid⟩ := hPeer h
    exact ⟨heardStored_grows e hHeard, said_grows e hSaid⟩
  | active pairing => exact ⟨h.1, h.2.grow e⟩
  | gone => trivial

section
variable (h : Consistent terms sha256 past link)
include h

section Calls
variable (hCaller : e.call.1 = role)
  (hWrote : ∀ channel, phase.channel = some channel → channel.Wrote after)
  (hPhase : PhaseHolds terms (past ++ [e]) role phase)
include hCaller hWrote hPhase

/-- One side moves. Whatever concerns the other side, or the past, stands; what
is left to show is about this call alone. -/
theorem Consistent.advance
    (hCarried : ∀ entry ∈ after, entry ∈ link.written role ∨
      (entry.2.length ≤ maxFrameSize → ∃ message, saidBy role e = some message ∧
        Carries entry.1 message))
    (hGranted : ∀ grants, (saidBy role e).bind grantsOf = some grants →
      Granted terms.offered grants ∧ confirms role past = [])
    (hReported : ∀ stored, saidBy role e = some (.pairingStored stored) → records role past ≠ [])
    (hBuilt : ∀ record, recordBy role e = some record →
      RecordHolds terms sha256 (past ++ [e]) role record) :
    Consistent terms sha256 (past ++ [e]) (link.replace role phase after) := by
  constructor
  case wrote =>
    refine forall_replace link phase after (P := fun _ phase written =>
      ∀ channel, phase.channel = some channel → channel.Wrote written) hWrote ?_
    exact fun other _ => h.wrote other
  case carried =>
    refine forall_replace link phase after (P := fun other _ written =>
      ∀ entry ∈ written, entry.2.length ≤ maxFrameSize →
        ∃ message ∈ said other (past ++ [e]), Carries entry.1 message) ?_ ?_
    · intro entry hEntry hFits
      rcases hCarried entry hEntry with hOld | hNew
      · obtain ⟨message, hMem, hCarries⟩ := h.carried role entry hOld hFits
        exact ⟨message, said_grows e hMem, hCarries⟩
      · obtain ⟨message, hSaid, hCarries⟩ := hNew hFits
        exact ⟨message, by simp [said_append, hSaid], hCarries⟩
    · intro other _ entry hEntry hFits
      obtain ⟨message, hMem, hCarries⟩ := h.carried other entry hEntry hFits
      exact ⟨message, said_grows e hMem, hCarries⟩
  case granted =>
    intro other grants hGrants
    rw [confirms_append, mem_append, mem_toList] at hGrants
    rcases hGrants with hOld | hNew
    · exact h.granted other grants hOld
    obtain ⟨message, hSaid, -⟩ := bind_eq_some_iff.mp hNew
    obtain rfl := hCaller.symm.trans (caller_of_saidBy e hSaid)
    exact (hGranted grants hNew).1
  case once =>
    intro other
    rw [confirms_append]
    cases hNew : (saidBy other e).bind grantsOf with
    | none => simpa using h.once other
    | some grants =>
      obtain ⟨message, hSaid, -⟩ := bind_eq_some_iff.mp hNew
      obtain rfl := hCaller.symm.trans (caller_of_saidBy e hSaid)
      simp [(hGranted grants hNew).2]
  case reported =>
    intro other stored hStored
    apply records_grows
    rw [said_append, mem_append, mem_toList] at hStored
    rcases hStored with hOld | hNew
    · exact h.reported other stored hOld
    · obtain rfl := hCaller.symm.trans (caller_of_saidBy e hNew)
      exact hReported stored hNew
  case built =>
    intro other record hRecord
    rw [records_append, mem_append, mem_toList] at hRecord
    rcases hRecord with hOld | hNew
    · exact (h.built other record hOld).grow e
    · obtain rfl := hCaller.symm.trans (caller_of_recordBy e hNew)
      exact hBuilt record hNew
  case phase =>
    refine forall_replace link phase after (P := fun other phase _ =>
      PhaseHolds terms (past ++ [e]) other phase) hPhase ?_
    intro other hRole
    have hSilent : saidBy other e = none :=
      if_neg fun hCall => hRole (hCall.symm.trans hCaller)
    exact (h.phase other).grow hSilent

/-- A call that sent nothing and made no record. -/
theorem Consistent.quiet (hUnsent : Unsent (link.written role) after)
    (hSilent : saidBy role e = none) (hNoRecord : recordBy role e = none) :
    Consistent terms sha256 (past ++ [e]) (link.replace role phase after) := by
  refine h.advance hCaller hWrote hPhase ?_ ?_ ?_ ?_
  · rcases hUnsent with rfl | ⟨plaintext, output, hLong, rfl⟩
    · exact fun _ hOld => .inl hOld
    · exact forall_mem_snoc (fun _ hOld => .inl hOld)
        (.inr fun hFits => absurd hFits (Nat.not_le.mpr hLong))
  · intro grants hGrants
    rw [hSilent] at hGrants
    cases hGrants
  · intro stored hStored
    rw [hSilent] at hStored
    cases hStored
  · intro record hRecord
    rw [hNoRecord] at hRecord
    cases hRecord

theorem Consistent.spoke
    (hSent : Sent message frame (link.written role) after) (hSaid : saidBy role e = some message)
    (hNoRecord : recordBy role e = none)
    (hGranted : ∀ grants, grantsOf message = some grants →
      Granted terms.offered grants ∧ confirms role past = [])
    (hReported : ∀ stored, message = .pairingStored stored → records role past ≠ []) :
    Consistent terms sha256 (past ++ [e]) (link.replace role phase after) := by
  obtain ⟨plaintext, hCarries, rfl⟩ := hSent
  refine h.advance hCaller hWrote hPhase ?_ ?_ ?_ ?_
  · exact forall_mem_snoc (fun _ hOld => .inl hOld) (.inr fun _ => ⟨message, hSaid, hCarries⟩)
  · intro grants hGrants
    rw [hSaid] at hGrants
    exact hGranted grants hGrants
  · intro stored hStored
    rw [hSaid] at hStored
    exact hReported stored (Option.some.inj hStored)
  · intro record hRecord
    rw [hNoRecord] at hRecord
    cases hRecord

end Calls

/-- A message heard is one the peer sent, as it arrives. -/
theorem Consistent.heard (hHeard : Heard (link.written role) message nowMs) :
    ∃ sent ∈ said role past, message = sent.received nowMs := by
  obtain ⟨entry, hEntry, hFits, envelope, hDecode, hMessage⟩ := hHeard
  obtain ⟨sent, hSaid, hCarries⟩ := h.carried role entry hEntry hFits
  exact ⟨sent, hSaid, hCarries envelope nowMs _ hDecode hMessage⟩

theorem Consistent.heard_grants
    (hHeard : Heard (link.written role) (.pairingConfirm ⟨grants⟩) nowMs) :
    grants ∈ confirms role past := by
  obtain ⟨message, hSaid, hReceived⟩ := h.heard hHeard
  cases message with
  | pairingConfirm confirm =>
    simp only [received, pairingConfirm.injEq, PairingConfirmMessage.mk.injEq] at hReceived
    have hMem : confirm.grantedProfiles ∈ confirms role past :=
      mem_filterMap.mpr ⟨_, hSaid, rfl⟩
    -- what a side confirms is already in registry order
    have hSorted : sortProfiles confirm.grantedProfiles = confirm.grantedProfiles :=
      (h.granted role _ hMem).sorted.insertionSort_eq
    rw [hReceived, hSorted]
    exact hMem
  | _ => cases hReceived

/-- A side that sent and received the storage confirmation. -/
theorem Consistent.acknowledged {storage}
    (hParty : link.party role = .storing storage) (hConfirmed : storage.isConfirmed = true) :
    storage.pairId = terms.pairId ∧ Acknowledged terms past role := by
  have hPhase := h.phase role
  rw [hParty] at hPhase
  obtain ⟨hPair, -, hOurs, hPeer⟩ := hPhase
  simp only [isConfirmed, Bool.and_eq_true] at hConfirmed
  obtain ⟨hHeard, hSaid⟩ := hPeer hConfirmed.2
  exact ⟨hPair, hOurs hConfirmed.1, hHeard, hSaid, h.reported role.peer _ hSaid⟩

end

theorem intoStorage_ok {pairing : PairingConfirmation S} {storage : PairingStorage S}
    (h : pairing.intoStorage sha256 createdAtMs = .ok (record, storage)) :
    pairing.localGrants = some record.profiles ∧ pairing.peerGrants = some record.profiles ∧
      computeGrantsHash sha256 record.profiles = .ok record.grantsHash ∧
      record.pairId = pairing.pairId ∧ record.role = pairing.role ∧
      record.storageConfirmed = false ∧ storage = ⟨pairing.pairId, pairing.channel, false, false⟩ := by
  unfold PairingConfirmation.intoStorage at h
  split at h
  · split at h
    · rename_i ours theirs hOurs hTheirs
      split_ifs at h with hSame
      obtain rfl := not_not.mp hSame
      obtain ⟨grantsHash, hHash, h⟩ := bind_eq_ok.mp h
      obtain ⟨fresh, hNew, h⟩ := bind_eq_ok.mp h
      cases h
      rw [mapError_eq_ok] at hHash hNew
      unfold PairRecord.new at hNew
      split_ifs at hNew
      cases hNew
      exact ⟨hOurs, hTheirs, hHash, rfl, rfl, rfl, rfl⟩
    · cases h
  · cases h

end Step

section Run
theorem start_consistent (terms : PairingTerms) (library : EndpointRole → S) :
    Consistent terms sha256 [] (start terms library) where
  wrote role channel hChannel := by
    cases hChannel
    exact ⟨_, rfl, rfl⟩
  carried role entry hEntry := by cases hEntry
  granted role grants hGrants := by cases hGrants
  once role := by simp [confirms, said]
  reported role stored hStored := by cases hStored
  built role record hRecord := by cases hRecord
  phase role := ⟨rfl, rfl, rfl, rfl, fun grants hGrants => by cases hGrants⟩

variable {channel : SecureChannel (Recorded S)}

theorem writtenOr_wrote {written} (h : channel.Wrote written) (fallback : List (Bytes × Bytes)) :
    writtenOr fallback (some channel) = written := by
  obtain ⟨⟨transport, sequence⟩, hWhole⟩ : ∃ whole, whole = channel := ⟨channel, rfl⟩
  subst hWhole
  obtain ⟨state, rfl, rfl⟩ : ∃ state, transport = .snow state ∧ state.written = written := h
  rfl

/-- The log kept for a side whose channel is still there is that channel's. -/
theorem settle {P : PairingLink S → Prop} (hChannel : phase.channel = some channel)
    (hWrote : channel.Wrote after)
    (h : (∀ other, phase.channel = some other → other.Wrote after) →
      P (link.replace role phase after)) :
    P (link.replace role phase (writtenOr (link.written role) phase.channel)) := by
  have hAll : ∀ other, phase.channel = some other → other.Wrote after := by
    intro other hOther
    rw [hChannel] at hOther
    cases hOther
    exact hWrote
  rw [hChannel, writtenOr_wrote hWrote]
  exact h hAll

section Moves
variable {call : PairingCall} {reply : PairingReply} {pairing : PairingConfirmation (Recorded S)}
  {storage : PairingStorage (Recorded S)}

theorem saidBy_self (hBefore : link.party role = phase) :
    saidBy role ⟨link, (role, call), reply⟩ = phase.spoken call reply := by
  rw [saidBy, if_pos rfl, hBefore]

section
variable (h : Consistent terms sha256 past link)
include h

theorem failed_consistent
    (hFailed : reply.succeeded = false) (hUnsent : Unsent (link.written role) after)
    (hWrote : ∀ channel, phase.channel = some channel → channel.Wrote after)
    (hPhase : PhaseHolds terms past role phase) :
    Consistent terms sha256 (past ++ [⟨link, (role, call), reply⟩])
      (link.replace role phase after) := by
  obtain ⟨hSilent, hNoRecord⟩ :=
    @readings_failed S role ⟨link, (role, call), reply⟩ hFailed
  exact h.quiet rfl hWrote (hPhase.grow hSilent) hUnsent hSilent hNoRecord

/-- A failed call that leaves the side where it was. -/
theorem kept_consistent (hBefore : link.party role = phase) (hFailed : reply.succeeded = false) :
    Consistent terms sha256 (past ++ [⟨link, (role, call), reply⟩])
      (link.replace role phase (writtenOr (link.written role) phase.channel)) := by
  have hPhase := h.phase role
  have hChannel := h.wrote role
  rw [hBefore] at hPhase hChannel
  cases hSome : phase.channel with
  | none =>
    refine failed_consistent h hFailed (.inl rfl) (fun channel hNone => ?_) hPhase
    rw [hSome] at hNone
    cases hNone
  | some channel =>
    rw [writtenOr_wrote (hChannel channel hSome)]
    exact failed_consistent h hFailed (.inl rfl) hChannel hPhase

theorem grants_consistent (hBefore : link.party role = .confirming pairing)
    (hWrote : channel.Wrote after) (hFirst : pairing.localGrants = none)
    (hValid : validateGrants grants pairing.offeredProfiles = .ok ())
    (hSent : Sent (.pairingConfirm ⟨sortProfiles grants⟩) frame (link.written role) after) :
    Consistent terms sha256 (past ++ [⟨link, (role, .sendConfirmation grants), .sent (.ok frame)⟩])
      (link.replace role
        (.confirming { pairing with channel, localGrants := some (sortProfiles grants) })
        (writtenOr (link.written role) (some channel))) := by
  have hPhase := h.phase role
  rw [hBefore] at hPhase
  obtain ⟨hPair, hRole, hOffered, hLocal, hPeer⟩ := hPhase
  rw [hFirst] at hLocal
  rw [hOffered] at hValid
  refine settle rfl hWrote fun hAll => h.spoke rfl hAll ?_ hSent (saidBy_self hBefore) rfl
    (fun found hFound => ?_) (fun stored hStored => by cases hStored)
  · refine ⟨hPair, hRole, hOffered, ?_, fun found hFound => confirms_grows _ (hPeer found hFound)⟩
    rw [confirms_append, saidBy_self hBefore, hLocal]
    rfl
  · cases hFound
    exact ⟨granted_sortProfiles hValid, hLocal⟩

/-- The record is made of what both sides confirmed. -/
theorem built_consistent (hBefore : link.party role = .confirming pairing)
    (hBuilt : pairing.intoStorage sha256 createdAtMs = .ok (record, storage)) :
    Consistent terms sha256
      (past ++ [⟨link, (role, .intoStorage createdAtMs), .record (.ok record)⟩])
      (link.replace role (.storing storage)
        (writtenOr (link.written role) (some storage.channel))) := by
  obtain ⟨hOurs, hTheirs, hHash, hRecordPair, hRecordRole, hUnconfirmed, rfl⟩ :=
    intoStorage_ok hBuilt
  have hPhase := h.phase role
  have hChannel := h.wrote role pairing.channel (by rw [hBefore]; rfl)
  rw [hBefore] at hPhase
  obtain ⟨hPair, hRole, -, hLocal, hPeer⟩ := hPhase
  have hRecord : recordBy role ⟨link, (role, .intoStorage createdAtMs), .record (.ok record)⟩ =
      some record := if_pos rfl
  refine settle rfl hChannel fun hAll => h.advance rfl hAll ⟨hPair, ?_, nofun, nofun⟩
    (fun entry hEntry => .inl hEntry) ?_ ?_ ?_
  · rw [records_append, hRecord]
    simp
  · intro grants hGrants
    rw [saidBy_self hBefore] at hGrants
    cases hGrants
  · intro stored hStored
    rw [saidBy_self hBefore] at hStored
    cases hStored
  · intro found hFound
    rw [hRecord] at hFound
    cases hFound
    have hMine : record.profiles ∈ confirms role past := by
      rw [hLocal, hOurs]
      exact mem_singleton_self _
    exact ⟨hRecordPair.trans hPair, hRecordRole.trans hRole, hUnconfirmed, hHash,
      confirms_grows _ hMine, confirms_grows _ (hPeer _ hTheirs)⟩

theorem saidStored_consistent
    (hBefore : link.party role = .storing storage) (hWrote : channel.Wrote after)
    (hSent : Sent (.pairingStored ⟨storage.pairId⟩) frame (link.written role) after) :
    Consistent terms sha256 (past ++ [⟨link, (role, .sendStored), .sent (.ok frame)⟩])
      (link.replace role (.storing { storage with channel, localStoredSent := true })
        (writtenOr (link.written role) (some channel))) := by
  have hPhase := h.phase role
  rw [hBefore] at hPhase
  obtain ⟨hPair, hRecord, -, hPeer⟩ := hPhase
  refine settle rfl hWrote fun hAll => h.spoke rfl hAll
    ⟨hPair, records_grows _ hRecord, fun _ => ?_, fun hStored => ?_⟩ hSent (saidBy_self hBefore) rfl
    (fun grants hGrants => by cases hGrants) (fun _ _ => hRecord)
  · rw [said_append, saidBy_self hBefore, ← hPair]
    exact mem_append_right _ (mem_singleton_self _)
  · obtain ⟨hHeard, hSaid⟩ := hPeer hStored
    exact ⟨heardStored_grows _ hHeard, said_grows _ hSaid⟩

theorem heardStored_consistent (hBefore : link.party role = .storing storage)
    (hWrote : channel.Wrote (link.written role))
    (hHeard : Heard (link.written role.peer) (.pairingStored ⟨storage.pairId⟩) nowMs) :
    Consistent terms sha256 (past ++ [⟨link, (role, .receiveStored frame nowMs), .stored (.ok ())⟩])
      (link.replace role (.storing { storage with channel, peerStored := true })
        (writtenOr (link.written role) (some channel))) := by
  have hPhase := h.phase role
  rw [hBefore] at hPhase
  obtain ⟨hPair, hRecord, hOurs, -⟩ := hPhase
  refine settle rfl hWrote fun hAll => h.quiet rfl hAll
    ⟨hPair, records_grows _ hRecord, fun hSent => said_grows _ (hOurs hSent), fun _ => ⟨?_, ?_⟩⟩
    (.inl rfl) (saidBy_self hBefore) rfl
  · rw [heardStored, filterMap_append_singleton, heardStoredBy, if_pos rfl]
    simp
  · obtain ⟨message, hSaid, hReceived⟩ := h.heard hHeard
    cases message with
    | pairingStored other =>
      cases hReceived
      exact said_grows _ (hPair ▸ hSaid)
    | _ => cases hReceived

/-- What one side does keeps past and link together. -/
theorem move_consistent {before : PairingPhase (Recorded S)} (hBefore : link.party role = before)
    (hMove : PairingMove sha256 (link.written role.peer) (link.written role) before
      call reply phase) :
    Consistent terms sha256 (past ++ [⟨link, (role, call), reply⟩])
      (link.replace role phase (writtenOr (link.written role) phase.channel)) := by
  have hPhase := h.phase role
  rw [hBefore] at hPhase
  cases hMove with
  | kept _ _ _ hFailed => exact kept_consistent h hBefore hFailed
  | ended _ _ _ hFailed =>
    exact failed_consistent h hFailed (.inl rfl) (fun channel hNone => by cases hNone) trivial
  | failedConfirming pairing _ _ channel after hFailed hWrote hUnsent
  | failedStoring storage _ _ channel after hFailed hWrote hUnsent =>
    exact settle rfl hWrote fun hAll => failed_consistent h hFailed hUnsent hAll hPhase
  | saidHello pairing displayName platform frame channel after hWrote hSent =>
    obtain ⟨hPair, hRole, hOffered, hLocal, hPeer⟩ := hPhase
    refine settle rfl hWrote fun hAll => h.spoke rfl hAll
      ⟨hPair, hRole, hOffered, ?_, fun grants hGrants => confirms_grows _ (hPeer grants hGrants)⟩
      hSent (saidBy_self hBefore) rfl nofun nofun
    rw [confirms_append, saidBy_self hBefore, hLocal]
    exact append_nil _
  | heardHello pairing frame nowMs hello channel hWrote =>
    have hStill : PhaseHolds terms past role
        (.confirming { pairing with channel, peerHello := some hello }) := hPhase
    exact settle rfl hWrote fun hAll =>
      h.quiet rfl hAll (hStill.grow (saidBy_self hBefore)) (.inl rfl) (saidBy_self hBefore) rfl
  | saidGrants pairing grants frame channel after hWrote hFirst hValid hSent =>
    exact grants_consistent h hBefore hWrote hFirst hValid hSent
  | heardGrants pairing frame nowMs granted channel hWrote hHeard =>
    obtain ⟨hPair, hRole, hOffered, hLocal, -⟩ := hPhase
    have hStill : PhaseHolds terms past role
        (.confirming { pairing with channel, peerGrants := some granted }) := by
      refine ⟨hPair, hRole, hOffered, hLocal, fun grants hGrants => ?_⟩
      cases hGrants
      exact h.heard_grants hHeard
    exact settle rfl hWrote fun hAll =>
      h.quiet rfl hAll (hStill.grow (saidBy_self hBefore)) (.inl rfl) (saidBy_self hBefore) rfl
  | built pairing createdAtMs record storage hBuilt => exact built_consistent h hBefore hBuilt
  | saidStored storage frame channel after hWrote hSent =>
    exact saidStored_consistent h hBefore hWrote hSent
  | heardStored storage frame nowMs channel hWrote hHeard =>
    exact heardStored_consistent h hBefore hWrote hHeard
  | activated storage hConfirmed =>
    have hActive : PhaseHolds terms past role (.active ⟨storage.pairId⟩) :=
      h.acknowledged hBefore hConfirmed
    exact h.quiet rfl nofun (hActive.grow (saidBy_self hBefore)) (.inl rfl) (saidBy_self hBefore) rfl
  | confirmed pairing record hPair =>
    exact h.quiet rfl nofun trivial (.inl rfl) (saidBy_self hBefore) rfl

end

end Moves

section
variable (h : Consistent terms sha256 past link)
include h

/-- The sides confirmed at most one set each, and a record holds a set both
confirmed. -/
theorem Consistent.records_agree {left right}
    (hLeft : left ∈ records role past) (hRight : right ∈ records role.peer past) :
    left.pairId = right.pairId ∧ left.profiles = right.profiles ∧
      left.grantsHash = right.grantsHash := by
  have hOurs := h.built role left hLeft
  have hTheirs := h.built role.peer right hRight
  have hProfiles : left.profiles = right.profiles := by
    obtain ⟨grants, hOnly⟩ : ∃ grants, confirms role.peer past = [grants] :=
      length_eq_one_iff.mp (le_antisymm (h.once role.peer) (length_pos_of_mem hOurs.theirs))
    have hMine := hOurs.theirs
    have hPeer := hTheirs.ours
    rw [hOnly, mem_singleton] at hMine hPeer
    rw [hMine, hPeer]
  refine ⟨hOurs.pairId.trans hTheirs.pairId.symm, hProfiles, ?_⟩
  have hHash := hOurs.grantsHash
  rw [hProfiles, hTheirs.grantsHash] at hHash
  exact (Except.ok.inj hHash).symm

variable {provider : Provider S}

/-- Only a side that sent and received the storage confirmation becomes
active. -/
theorem Consistent.active_acknowledged {pairing}
    (hActive : (step provider sha256 link (role, .intoActive)).1 = .active (.ok pairing)) :
    Acknowledged terms past role := by
  cases hParty : link.party role with
  | storing storage =>
    simp only [step, hParty, PairingPhase.step, intoActive] at hActive
    cases hConfirmed : storage.isConfirmed with
    | false => simp [hConfirmed] at hActive
    | true => exact (h.acknowledged hParty hConfirmed).2
  | _ => simp [step, hParty, PairingPhase.step] at hActive

theorem Consistent.confirmed_acknowledged {confirmed}
    (hConfirmed : (step provider sha256 link (role, .confirm record)).1 =
      .confirmed (.ok confirmed)) :
    confirmed.pairId = terms.pairId ∧ Acknowledged terms past role := by
  have hPhase := h.phase role
  cases hParty : link.party role with
  | active pairing =>
    rw [hParty] at hPhase
    obtain ⟨hPair, hAcknowledged⟩ := hPhase
    simp only [step, hParty, PairingPhase.step, ActivePairing.confirm] at hConfirmed
    split at hConfirmed
    · cases hConfirmed
    rename_i hSame
    cases hConfirmed
    exact ⟨(not_not.mp hSame).trans hPair, hAcknowledged⟩
  | _ => simp [step, hParty, PairingPhase.step] at hConfirmed

end

end Run

/-- However the calls of the two sides interleave and whatever frames they are
handed, the records of both sides agree on the pairing, the grants and their
hash. A record holds a set the offer names, sorted and without repetition,
and is unconfirmed. A side becomes active, and confirms a record, only once
it has sent its storage confirmation and received that of the peer, which
had its own record by then. -/
theorem pairing_agreement (provider : Provider S) (sha256 : Bytes → GrantsHash)
    (terms : PairingTerms) (names : List String)
    (hOffered : parseProfileNames names = .ok terms.offered) (library : EndpointRole → S)
    (calls : List (EndpointRole × PairingCall)) :
    let past := history (step provider sha256) (start terms library) calls
    let link := final (step provider sha256) (start terms library) calls
    (∀ left ∈ records .requester past, ∀ right ∈ records .proxy past,
      left.pairId = right.pairId ∧ left.profiles = right.profiles ∧
        left.grantsHash = right.grantsHash) ∧
    (∀ role, ∀ record ∈ records role past,
      record.pairId = terms.pairId ∧ record.storageConfirmed = false ∧
        Granted terms.offered record.profiles ∧
        ∀ profile ∈ record.profiles, profile.asStr ∈ names) ∧
    (∀ role pairing, (step provider sha256 link (role, .intoActive)).1 = .active (.ok pairing) →
      Acknowledged terms past role) ∧
    ∀ role record confirmed,
      (step provider sha256 link (role, .confirm record)).1 = .confirmed (.ok confirmed) →
      confirmed.pairId = terms.pairId ∧ Acknowledged terms past role := by
  intro past link
  have h : Consistent terms sha256 past link :=
    history_invariant (step provider sha256) (start_consistent terms library)
      (fun _ _ call h => move_consistent h rfl (step_move provider sha256 (h.wrote call.1) call.2)) calls
  refine ⟨fun left hLeft right hRight => h.records_agree hLeft hRight, ?_,
    fun role pairing hActive => h.active_acknowledged hActive,
    fun role record confirmed hConfirmed => h.confirmed_acknowledged hConfirmed⟩
  intro role record hRecord
  have hHolds := h.built role record hRecord
  have hGranted := h.granted role _ hHolds.ours
  refine ⟨hHolds.pairId, hHolds.unconfirmed, hGranted, fun profile hMem => ?_⟩
  exact mem_of_parseProfileNames hOffered (hGranted.offered hMem)

/-- A library that hides nothing. -/
def plainLibrary : Provider Unit where
  aead := .transparent
  snowWrite _ plaintext _ := (some plaintext, ())
  snowRead _ frame _ := (some frame, ())

def ceremonyTerms : PairingTerms where
  sessionId := .replicate _ 1
  pairId := .replicate _ 2
  offerHash := .replicate _ 3
  candidate := TransportProfile.stream.offerEntry
  offered := [.cardStatus]
  keys _ := ⟨.replicate _ 4, .replicate _ 5⟩
  remote _ := .replicate _ 6

def ceremonyStep : PairingLink Unit → EndpointRole × PairingCall → PairingReply × PairingLink Unit :=
  step plainLibrary fun _ => .replicate _ 7

/-- One side sends, and the other is handed the frame. -/
def relay (role : EndpointRole) (send : PairingCall) (receive : BinaryFrame → PairingCall)
    (calls : List (EndpointRole × PairingCall)) : List (EndpointRole × PairingCall) :=
  let link := final ceremonyStep (start ceremonyTerms fun _ => ()) calls
  match (ceremonyStep link (role, send)).1 with
  | .sent (.ok frame) => calls ++ [(role, send), (role.peer, receive frame)]
  | _ => calls

def ceremony : List (EndpointRole × PairingCall) :=
  let hello := PairingCall.sendHello ⟨"A", by decide⟩ "x"
  let greeted := relay .proxy hello (.receiveHello · 0)
    (relay .requester hello (.receiveHello · 0) [])
  let granted := relay .proxy (.sendConfirmation [.cardStatus]) (.receiveConfirmation · 0)
    (relay .requester (.sendConfirmation [.cardStatus]) (.receiveConfirmation · 0) greeted)
  relay .proxy .sendStored (.receiveStored · 0) (relay .requester .sendStored (.receiveStored · 0)
      (granted ++ [(.requester, .intoStorage 0), (.proxy, .intoStorage 0)]))

/-- Both sides end with a record, and agree. -/
theorem ceremony_agrees : ∃ left right, left ∈ records .requester (history ceremonyStep
        (start ceremonyTerms fun _ => ()) ceremony) ∧
      right ∈ records .proxy (history ceremonyStep (start ceremonyTerms fun _ => ()) ceremony) ∧
      left.pairId = right.pairId ∧ left.profiles = right.profiles ∧
      left.grantsHash = right.grantsHash := by
  have hBoth : records .requester (history ceremonyStep (start ceremonyTerms fun _ => ())
        ceremony) ≠ [] ∧
      records .proxy (history ceremonyStep (start ceremonyTerms fun _ => ()) ceremony) ≠ [] := by
    decide +kernel
  obtain ⟨left, hLeft⟩ := exists_mem_of_ne_nil _ hBoth.1
  obtain ⟨right, hRight⟩ := exists_mem_of_ne_nil _ hBoth.2
  have hOffered : parseProfileNames ["fi.refineid.card-status"] = .ok ceremonyTerms.offered := rfl
  exact ⟨left, right, hLeft, hRight, (pairing_agreement plainLibrary (fun _ => .replicate _ 7)
    ceremonyTerms ["fi.refineid.card-status"] hOffered (fun _ => ()) ceremony).1
    left hLeft right hRight⟩

end PairingLink

end RefineId.Rapp
