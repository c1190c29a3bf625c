import RefineId.Rapp.PairingCandidatesRun

/-! What one typed code can cause: how many connections, which tries, in which
order, and when it is reported as not accepted. -/
namespace RefineId.Rapp.PairingCandidates

open Data Semantics List Nat Standing CandidateEvent

variable {E : Type} [DecidableEq E]

variable (before : List (CandidateEvent E))

variable (e : CandidateEvent E)

/-- Every earlier try of the offer ended with a busy answer. -/
def TriedOnce : Prop :=
  ∀ offerId, e.begun = some offerId → ∀ later, TriedThen before offerId later → EndedBusy later

/-- The endpoint was found and never opened, or it answered busy, its wait is
over and every endpoint found has been opened. -/
def OpenedInTurn : Prop :=
  ∀ endpoint, e.opened = some endpoint → some endpoint ∈ before.map foundEndpoint ∧
      (standing before endpoint = .unopened ∨
        ∃ nowMs retryAfterMs atMs, e.call = .nextEndpoint nowMs ∧
          standing before endpoint = .busy retryAfterMs atMs ∧
          min (atMs.toNat + retryAfterMs.toNat) (2 ^ 64 - 1) ≤ nowMs.toNat ∧
          ∀ other, some other ∈ before.map foundEndpoint →
            standing before other ≠ .unopened)

/-- An endpoint whose connection closed without a busy answer stays closed. -/
def NeverReopened : Prop :=
  ∀ endpoint earlier later, before = earlier ++ later → standing earlier endpoint = .closed →
    e.opened ≠ some endpoint

/-- The code is reported as not accepted only after a try without a busy
answer or a busy answer, and only with no endpoint left or at the limit. -/
def RefusalJustified : Prop :=
  e.reply = .next (.ok .notAccepted) →
    ((∃ offerId later, TriedThen (before ++ [e]) offerId later ∧ EndedUnbusy later) ∨
      ∃ other ∈ before ++ [e], other.endsBusy = true) ∧
    ((∀ endpoint, some endpoint ∈ before.map foundEndpoint →
        standing (before ++ [e]) endpoint = .closed) ∨
      (before.filterMap opened).length = pairingCandidatesMax)

/-- The code was taken, or reported as not accepted. -/
def Settles : Prop :=
  e.reply = .next (.ok .notAccepted) ∨ (e.call = .accepted ∧ e.reply = .admitted (.ok ()))

/-- Nothing is opened, tried or reported. -/
def Silent : Prop :=
  e.reply = .recorded ∨ e.reply = .endpoint (.error .settled) ∨
    e.reply = .admitted (.error .settled) ∨ e.reply = .next (.error .settled)

variable (calls : List (CandidateCall E))

theorem history_tracks : Tracks (history step new calls) (final step new calls) :=
  history_invariant step ⟨nodup_nil, nofun, fun _ h => absurd rfl h, nofun, nofun, rfl, le_refl _⟩
    (fun _ ledger call h => tracks_step h (ledger.step_move call)) calls

theorem history_counts : Counts (history step new calls) (final step new calls) :=
  history_invariant step ⟨rfl, rfl, zero_le _⟩
    (fun _ ledger call h => counts_step h (ledger.step_move call)) calls

theorem history_tries : Tries (history step new calls) (final step new calls) := by
  refine history_invariant step ⟨?_, nofun, nofun, nofun⟩
    (fun _ ledger call h => tries_step h (ledger.step_move call)) calls
  rintro offerId later ⟨before, e, hSplit, -⟩
  cases before <;> cases hSplit

variable {past : List (CandidateEvent E)} {call : CandidateCall E} {reply : CandidateReply E}
  {endpoint : E}

section Step
variable {ledger after : PairingCandidates E}

omit [DecidableEq E] in
theorem tried_once (h : Tries past ledger) (hMove : ledger.Move call reply after) :
    TriedOnce past ⟨ledger, call, reply⟩ := by
  intro offerId hBegun later hTried
  cases hMove with
  | refused hQuiet =>
    rw [(quiet_reads hQuiet).2.1] at hBegun
    cases hBegun
  | begun hPhase hFresh =>
    cases hBegun
    exact (h.kept _ later hTried).resolve_right hFresh
  | ended hPhase hEnding | reported hPhase hEnding => cases hEnding <;> cases hBegun
  | _ => cases hBegun

/-- Listed endpoints are all the endpoints found while there is room. -/
theorem found_listed (h : Tracks past ledger) (hUnsettled : ledger.isSettled = false)
    (hRoom : ledger.candidates.length < pairingCandidatesMax)
    (hFound : some endpoint ∈ past.map foundEndpoint) :
    ∃ candidate ∈ ledger.candidates, candidate.endpoint = endpoint := by
  rcases h.found endpoint hFound with hSettled | hFull | hListed
  · rw [hUnsettled] at hSettled
    cases hSettled
  · exact absurd hRoom (not_lt.mpr hFull)
  · exact mem_map.mp hListed

/-- Every listed endpoint that no longer waits took an opening. -/
theorem length_le_openings (h : Tracks past ledger)
    (hStarted : ∀ candidate ∈ ledger.candidates, candidate.status ≠ .waiting) :
    ledger.candidates.length ≤ ledger.openings := by
  have hAll : ledger.candidates.countP (·.status ≠ .waiting) = ledger.candidates.length :=
    countP_eq_length.mpr fun candidate hMem => by simpa using hStarted candidate hMem
  exact hAll ▸ h.started

theorem opened_in_turn (h : Tracks past ledger) (hMove : ledger.Move call reply after) :
    OpenedInTurn past ⟨ledger, call, reply⟩ := by
  intro endpoint hOpened
  cases hMove with
  | refused hQuiet =>
    rw [(quiet_reads hQuiet).1] at hOpened
    cases hOpened
  | @opened nowMs index candidate hPhase hLimit hCandidate hStatus =>
    cases hOpened
    have hMem := mem_of_getElem? hCandidate
    refine ⟨h.listed _ (mem_map_of_mem hMem), ?_⟩
    have hTold := h.status candidate hMem
    rcases hStatus with hWaiting | ⟨notBeforeMs, hDeferred, hTime, hOthers⟩
    · rw [hWaiting] at hTold
      exact .inl (eq_unopened hTold.symm)
    rw [hDeferred] at hTold
    obtain ⟨retryAfterMs, atMs, hBusy, rfl⟩ := eq_busy hTold.symm
    refine .inr ⟨nowMs, retryAfterMs, atMs, rfl, hBusy, ?_, ?_⟩
    · rw [← saturatingAdd_toNat]
      exact UInt64.le_iff_toNat_le.mp hTime
    intro other hFound
    have hRoom := lt_of_le_of_lt (length_le_openings h hOthers) hLimit
    obtain ⟨listed, hListed, rfl⟩ :=
      found_listed h (by simp [isSettled, hPhase]) hRoom hFound
    intro hUnopened
    exact hOthers listed hListed (by rw [h.status listed hListed, hUnopened]; rfl)
  | ended hPhase hEnding | reported hPhase hEnding => cases hEnding <;> cases hOpened
  | _ => cases hOpened

/-- A refusal has its ground in the calls before it. -/
theorem refusal_justified (h : Tracks past ledger) (hCounts : Counts past ledger)
    (hTries : Tries past ledger) (hMove : ledger.Move call reply after) :
    RefusalJustified past ⟨ledger, call, reply⟩ := by
  intro hReply
  have hTracks := tracks_step h hMove
  have hAfter := tries_step hTries hMove
  cases hMove with
  | refused hQuiet =>
    obtain rfl : reply = .next (.ok .notAccepted) := hReply
    obtain ⟨_, hError⟩ := hQuiet
    cases hError
  | ended hPhase hEnding hNext =>
    cases hReply
    exact absurd rfl hNext
  | @reported _ status _ _ hPhase hEnding hLeft hTried =>
    constructor
    · rcases hTried with hSome | hBusy
      · obtain ⟨offerId, hMem⟩ := exists_mem_of_ne_nil _ hSome
        obtain ⟨later, hThen, hUnbusy⟩ := hAfter.ended (by simp) (by simp) offerId hMem
        exact .inl ⟨offerId, later, hThen, hUnbusy⟩
      · exact .inr (hAfter.answered hBusy)
    have hLimit : pairingCandidatesMax ≤ ledger.openings →
        (past.filterMap opened).length = pairingCandidatesMax := fun hFull =>
      hCounts.openings ▸ le_antisymm hCounts.limit hFull
    rcases hLeft with hDone | hFull
    · -- with every listed endpoint done, a full list has used up the openings
      by_cases hRoom : ledger.candidates.length < pairingCandidatesMax
      · refine .inl fun endpoint hFound => ?_
        have hUnsettled : ledger.isSettled = false := by
          rcases hPhase with hPhase | hPhase <;> simp [isSettled, hPhase]
        obtain ⟨listed, hListed, rfl⟩ := found_listed h hUnsettled hRoom hFound
        have hKept := mem_map_of_mem (f := Candidate.endpoint) hListed
        rw [← closeFirst_endpoints status] at hKept
        obtain ⟨kept, hKept, hSame⟩ := mem_map.mp hKept
        have hTold := hTracks.status kept hKept
        rw [hDone kept hKept, hSame] at hTold
        exact eq_closed hTold.symm
      · refine .inr (hLimit ?_)
        have hLength : (closeFirst status ledger.candidates).length = ledger.candidates.length := by
          have hSame := congrArg length (closeFirst_endpoints status ledger.candidates)
          rwa [length_map, length_map] at hSame
        have hStarted := length_le_openings hTracks fun candidate hMem => by
          simp [hDone candidate hMem]
        exact (Nat.le_of_not_lt hRoom).trans (hLength ▸ hStarted)
    · exact .inr (hLimit hFull)
  | _ => cases hReply

end Step

/-- What the ledger is when an event of a run is met, and the event itself. -/
theorem history_at {calls before after}
    {e : CandidateEvent E} (hSplit : history step new calls = before ++ e :: after) :
    ∃ ledger next, Tracks before ledger ∧ Counts before ledger ∧ Tries before ledger ∧
      ledger.Move e.call e.reply next ∧ e = ⟨ledger, e.call, e.reply⟩ := by
  obtain ⟨first, -, -, rfl, he, -⟩ := history_split step hSplit
  refine ⟨final step new first, (step (final step new first) e.call).2, history_tracks first, history_counts first,
    history_tries first, ?_, ?_⟩
  · have hMove := (final step new first).step_move e.call
    have hReply : (step (final step new first) e.call).1 = e.reply := by rw [he]; rfl
    rwa [hReply] at hMove
  · rw [he]
    rfl

/-- Once closed without a busy answer, closed at every later point. -/
theorem closed_stays
    (hTurns : ∀ before e after, past = before ++ e :: after → OpenedInTurn before e)
    {earlier} (hClosed : standing earlier endpoint = .closed)
    (later rest : List (CandidateEvent E)) (hPast : past = earlier ++ later ++ rest) :
    standing (earlier ++ later) endpoint = .closed := by
  induction later using reverseRecOn generalizing rest with
  | nil => rwa [append_nil]
  | append_singleton later e ih =>
    have hBefore := ih (e :: rest) (by simp [hPast])
    have hTurn := hTurns (earlier ++ later) e rest (by simp [hPast])
    have hNotOpened : e.opened ≠ some endpoint := fun hOpened => by
      rcases (hTurn endpoint hOpened).2 with hUnopened | ⟨_, _, _, _, hBusy, -⟩
      · rw [hBefore] at hUnopened
        cases hUnopened
      · rw [hBefore] at hBusy
        cases hBusy
    rw [← append_assoc, standing_append, if_neg hNotOpened, hBefore]
    cases e.ends <;> rfl

theorem settled_step (ledger : PairingCandidates E) (call : CandidateCall E)
    (h : ledger.isSettled = true) :
    (step ledger call).2.isSettled = true ∧ Silent (event step ledger call) := by
  have hPhase : ledger.phase = .accepted ∨ ledger.phase = .notAccepted := by
    simpa [isSettled] using h
  have hEnd : ∀ status, ledger.endConnection status = .error .settled := by
    intro status
    rcases hPhase with hPhase | hPhase <;> simp [endConnection, hPhase]
  cases call with
  | found endpoint =>
    refine ⟨?_, .inl rfl⟩
    simp [step, found, h]
  | nextEndpoint nowMs =>
    rcases hPhase with hPhase | hPhase <;>
      simp [step, event, nextEndpoint, hPhase, isSettled, Silent]
  | beginTry offer =>
    rcases hPhase with hPhase | hPhase <;>
      simp [step, event, beginTry, hPhase, isSettled, Silent]
  | closed => simp [step, event, closed, hEnd, h, Silent]
  | busy retryAfterMs nowMs => simp [step, event, busy, hEnd, h, Silent]
  | accepted =>
    rcases hPhase with hPhase | hPhase <;>
      simp [step, event, accepted, hPhase, isSettled, Silent]

omit [DecidableEq E] in
theorem settles_settled {ledger after} (hMove : ledger.Move call reply after)
    (h : Settles ⟨ledger, call, reply⟩) : after.isSettled = true := by
  cases hMove with
  | refused hQuiet =>
    rcases h with hReply | ⟨-, hReply⟩
    · obtain rfl : reply = .next (.ok .notAccepted) := hReply
      obtain ⟨_, hError⟩ := hQuiet
      cases hError
    · obtain rfl : reply = .admitted (.ok ()) := hReply
      obtain ⟨_, hError⟩ := hQuiet
      cases hError
  | reported | accepted => rfl
  | ended hPhase hEnding hNext =>
    rcases h with hReply | ⟨-, hReply⟩
    · cases hReply
      exact absurd rfl hNext
    · cases hReply
  | _ => rcases h with hReply | ⟨hCall, hReply⟩ <;> first | cases hCall | cases hReply

/-- One typed code over any calls: at most eight connections, one at a time;
an offer tried again only if every earlier try of it ended busy; an endpoint
opened again only after a busy answer, when its wait is over and every
endpoint found has been opened, and never after it closed otherwise; the code
reported as not accepted only with cause; and nothing done once it is settled.
A wait that runs past the largest clock value ends at it. -/
theorem typed_code_ledger (calls : List (CandidateCall E)) :
    ((history step new calls).filterMap opened).length ≤ pairingCandidatesMax ∧
    ((history step new calls).filterMap opened).length ≤
      (history step new calls).countP ends + 1 ∧
    ∀ before e after, history step new calls = before ++ e :: after →
      TriedOnce before e ∧ OpenedInTurn before e ∧ NeverReopened before e ∧
        RefusalJustified before e ∧ (Settles e → ∀ later ∈ after, Silent later) := by
  have hCounts := history_counts calls
  have hTurns : ∀ before e after, history step new calls = before ++ e :: after →
      OpenedInTurn before e := by
    intro before e after hSplit
    obtain ⟨ledger, next, hTracks, -, -, hMove, he⟩ := history_at hSplit
    rw [he]
    exact opened_in_turn hTracks hMove
  refine ⟨hCounts.openings ▸ hCounts.limit, ?_, ?_⟩
  · rw [← hCounts.openings, hCounts.ended]
    refine Nat.add_le_add_left ?_ _
    split <;> decide
  intro before e after hSplit
  obtain ⟨ledger, next, hTracks, hCountsBefore, hTries, hMove, he⟩ := history_at hSplit
  refine ⟨?_, hTurns before e after hSplit, ?_, ?_, ?_⟩
  · rw [he]
    exact tried_once hTries hMove
  · rintro endpoint earlier later rfl hClosed hOpened
    have hStill := closed_stays hTurns hClosed later (e :: after) hSplit
    rcases (hTurns _ e after hSplit endpoint hOpened).2 with hUnopened | ⟨_, _, _, _, hBusy, -⟩
    · rw [hStill] at hUnopened
      cases hUnopened
    · rw [hStill] at hBusy
      cases hBusy
  · rw [he]
    exact refusal_justified hTracks hCountsBefore hTries hMove
  · intro hSettles
    exact (history_after step (fun ledger call h => settles_settled (ledger.step_move call) h)
      settled_step hSplit hSettles).2

/-- An endpoint that asks for a wait past the largest clock value is opened at
that value, before the wait is over. -/
theorem wait_saturates :
    let before : List (CandidateCall Nat) :=
      [.found 0, .nextEndpoint 0, .busy 18446744073709551615 1]
    standing (history step new before) 0 = .busy 18446744073709551615 1 ∧ opened
        (event step (final step new before) (.nextEndpoint 18446744073709551615)) = some 0 ∧
      (18446744073709551615 : UInt64).toNat <
        (1 : UInt64).toNat + (18446744073709551615 : UInt64).toNat := by
  decide +kernel

end RefineId.Rapp.PairingCandidates
