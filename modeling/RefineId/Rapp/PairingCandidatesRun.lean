import RefineId.Rapp.PairingCandidates

/-! What the ledger of a typed code allows over any sequence of calls, told
from the history alone: which connections were opened and how they ended,
which offers were tried, and when the code was reported. -/
namespace RefineId.Rapp

open Data Semantics List Nat Option

abbrev CandidateEvent (E : Type) := Event (PairingCandidates E) (CandidateCall E) (CandidateReply E)

variable {E : Type}

namespace CandidateEvent
def opened (e : CandidateEvent E) : Option E :=
  match e.reply with
  | .endpoint (.ok (.opened endpoint)) => some endpoint
  | _ => none

variable (e : CandidateEvent E)

def foundEndpoint : Option E :=
  match e.call with
  | .found endpoint => some endpoint
  | _ => none

def begun : Option OfferId :=
  match e.call, e.reply with
  | .beginTry offer, .admitted (.ok ()) => some offer.offerId
  | _, _ => none

/-- Whether the call ended the open connection, busy or not. -/
def ends : Bool :=
  match e.reply with
  | .next (.ok _) => true
  | _ => false

def endsBusy : Bool :=
  match e.call with
  | .busy _ _ => e.ends
  | _ => false

end CandidateEvent

/-- How an endpoint's last connection stands. -/
inductive Standing where
  | unopened
  | connected
  | busy (retryAfterMs nowMs : UInt64)
  | closed
  deriving DecidableEq

namespace Standing
def endedBy (call : CandidateCall E) : Standing → Standing
  | connected =>
    match call with
    | .busy retryAfterMs nowMs => busy retryAfterMs nowMs
    | _ => closed
  | other => other

/-- The status the ledger keeps for it. -/
def status : Standing → EndpointStatus
  | unopened => .waiting
  | connected => .opened
  | busy retryAfterMs nowMs => .deferred (saturatingAdd nowMs retryAfterMs)
  | closed => .done

variable {standing : Standing}

theorem eq_unopened (h : standing.status = .waiting) : standing = .unopened := by
  cases standing <;> simp_all [status]

theorem eq_closed (h : standing.status = .done) : standing = .closed := by
  cases standing <;> simp_all [status]

theorem eq_busy {notBeforeMs} (h : standing.status = .deferred notBeforeMs) :
    ∃ retryAfterMs nowMs, standing = .busy retryAfterMs nowMs ∧
      notBeforeMs = saturatingAdd nowMs retryAfterMs := by
  cases standing <;> simp_all [status]

end Standing

open CandidateEvent

section History
variable [DecidableEq E]

variable (past : List (CandidateEvent E))

/-- Where the history leaves an endpoint: by its last opening and the first
call after it that ended a connection. -/
def standing (endpoint : E) : Standing :=
  match since (fun e => e.opened = some endpoint) past with
  | none => .unopened
  | some later =>
    match later.find? ends with
    | none => .connected
    | some e => Standing.connected.endedBy e.call

theorem standing_append (e : CandidateEvent E) (endpoint : E) :
    standing (past ++ [e]) endpoint =
      if e.opened = some endpoint then .connected
      else if e.ends then (standing past endpoint).endedBy e.call
      else standing past endpoint := by
  rw [standing, since_append_singleton]
  by_cases hOpened : e.opened = some endpoint
  · simp [hOpened]
  rw [if_neg (by simpa using hOpened), if_neg hOpened, standing]
  cases since (fun e => decide (e.opened = some endpoint)) past with
  | none => cases e.ends <;> rfl
  | some later =>
    simp only [map_some, find?_append]
    cases hEnding : later.find? ends with
    | some ending =>
      have hKept : (Standing.connected.endedBy ending.call).endedBy e.call =
          Standing.connected.endedBy ending.call := by
        cases ending.call <;> rfl
      simp [hKept]
    | none => cases hEnds : e.ends <;> simp [hEnds]

end History

variable {status : EndpointStatus} {ledger : PairingCandidates E} {call : CandidateCall E}
  {reply : CandidateReply E} {past : List (CandidateEvent E)} {after : PairingCandidates E}
  {e : CandidateEvent E} {tried : List OfferId} {busyAnswered : Bool} {next : NextCandidate}

namespace PairingCandidates
/-! The two updates of a candidate, as changes of one status. -/

variable {candidates : List (Candidate E)}

theorem map_restatus_of_not {changed} [DecidablePred changed]
    (h : ∀ candidate ∈ candidates, ¬ changed candidate) :
    (candidates.map fun candidate =>
      if changed candidate then { candidate with status } else candidate) = candidates :=
  (map_congr_left fun candidate hMem => if_neg (h candidate hMem)).trans (map_id candidates)

theorem closeFirst_endpoints (status : EndpointStatus) (candidates : List (Candidate E)) :
    (closeFirst status candidates).map Candidate.endpoint = candidates.map Candidate.endpoint := by
  induction candidates with
  | nil => rfl
  | cons candidate rest ih =>
    rw [closeFirst]
    split
    · rfl
    · rw [map_cons, map_cons, ih]

/-- Closing the first open candidate closes the open candidates, when there
is at most one. -/
theorem closeFirst_eq_map (status : EndpointStatus) (h : candidates.countP (·.status = .opened) ≤ 1) :
    closeFirst status candidates = candidates.map fun candidate =>
        if candidate.status = .opened then { candidate with status } else candidate := by
  induction candidates with
  | nil => rfl
  | cons candidate rest ih =>
    rw [closeFirst, map_cons]
    by_cases hOpen : candidate.status = .opened
    · rw [if_pos hOpen, if_pos hOpen]
      rw [countP_cons_of_pos (by simpa using hOpen)] at h
      have hRest : ∀ other ∈ rest, other.status ≠ .opened := by
        simpa using le_zero.mp (le_of_succ_le_succ h)
      rw [map_restatus_of_not hRest]
    · rw [if_neg hOpen, if_neg hOpen]
      rw [countP_cons_of_neg (by simpa using hOpen)] at h
      rw [ih h]

def isConnected (ledger : PairingCandidates E) : Bool :=
  ledger.phase = .opened || ledger.phase = .trying || ledger.phase = .accepted

/-- The connections as the history counts them. -/
structure Counts (past : List (CandidateEvent E)) (ledger : PairingCandidates E) : Prop where
  openings : ledger.openings = (past.filterMap opened).length
  ended : ledger.openings = past.countP ends + if ledger.isConnected then 1 else 0
  limit : ledger.openings ≤ pairingCandidatesMax

theorem quiet_reads (h : Quiet reply) : opened ⟨ledger, call, reply⟩ = none ∧
      begun ⟨ledger, call, reply⟩ = none ∧
      ends ⟨ledger, call, reply⟩ = false := by
  cases reply with
  | recorded => cases call <;> exact ⟨rfl, rfl, rfl⟩
  | endpoint outcome =>
    cases outcome with
    | error error => cases call <;> exact ⟨rfl, rfl, rfl⟩
    | ok next => cases next <;> cases call <;> first | exact ⟨rfl, rfl, rfl⟩ | cases h
  | admitted outcome | next outcome =>
    obtain ⟨error, rfl⟩ := h
    cases call <;> exact ⟨rfl, rfl, rfl⟩

theorem counts_step (h : Counts past ledger) (hMove : ledger.Move call reply after) :
    Counts (past ++ [⟨ledger, call, reply⟩]) after := by
  obtain ⟨hOpenings, hEnded, hLimit⟩ := h
  have hKept {ledger' : PairingCandidates E}
      (hOpened : opened ⟨ledger, call, reply⟩ = none)
      (hSame : ledger'.openings = ledger.openings)
      (hConnected : ((if ends ⟨ledger, call, reply⟩ then 1 else 0) +
        if ledger'.isConnected then 1 else 0) = if ledger.isConnected then 1 else 0) :
      Counts (past ++ [⟨ledger, call, reply⟩]) ledger' := by
    refine ⟨?_, ?_, by rw [hSame]; exact hLimit⟩
    · rw [filterMap_append_singleton, hOpened, hSame, hOpenings]
      simp
    · rw [countP_append, countP_singleton, add_assoc, hConnected, hSame, hEnded]
  cases hMove with
  | refused hQuiet hCall =>
    obtain ⟨hOpened, -, hEnds⟩ := quiet_reads hQuiet
    exact hKept hOpened rfl (by simp [hEnds])
  | ignored | recorded => exact hKept rfl rfl (zero_add _)
  | begun hPhase | accepted hPhase =>
    exact hKept rfl rfl (by simp [isConnected, hPhase, ends])
  | opened hPhase hLess =>
    have hClosed : ledger.isConnected = false := by simp [isConnected, hPhase]
    rw [hClosed] at hEnded
    refine ⟨?_, ?_, hLess⟩
    · rw [filterMap_append_singleton, length_append, ← hOpenings]
      rfl
    · rw [countP_append]
      simpa [isConnected, ends] using hEnded
  | ended hPhase hEnding hNext | reported hPhase hEnding =>
    refine hKept rfl rfl ?_
    rcases hPhase with hPhase | hPhase <;>
      simp [isConnected, hPhase, ends, PairingCandidates.ended]

variable [DecidableEq E] {index : Nat} {candidate : Candidate E}

/-- Setting the status at an index sets it at the endpoint found there, when
no endpoint is listed twice. -/
theorem set_eq_map (hNodup : (candidates.map Candidate.endpoint).Nodup)
    (hCandidate : candidates[index]? = some candidate) (status : EndpointStatus) :
    candidates.set index { candidate with status } = candidates.map fun other =>
        if other.endpoint = candidate.endpoint then { other with status } else other := by
  induction candidates generalizing index with
  | nil => simp at hCandidate
  | cons head rest ih =>
    rw [map_cons, nodup_cons] at hNodup
    cases index with
    | zero =>
      rw [getElem?_cons_zero, Option.some.injEq] at hCandidate
      subst hCandidate
      have hRest : ∀ other ∈ rest, other.endpoint ≠ head.endpoint := fun other hMem hEq =>
        hNodup.1 (hEq ▸ mem_map_of_mem hMem)
      rw [set_cons_zero, map_cons, if_pos rfl, map_restatus_of_not hRest]
    | succ index =>
      rw [getElem?_cons_succ] at hCandidate
      have hOther : head.endpoint ≠ candidate.endpoint := fun hEq =>
        hNodup.1 (hEq ▸ mem_map_of_mem (mem_of_getElem? hCandidate))
      rw [set_cons_succ, map_cons, if_neg hOther, ih hNodup.2 hCandidate]

/-- The candidates as the history tells them. -/
structure Tracks (past : List (CandidateEvent E)) (ledger : PairingCandidates E) : Prop where
  nodup : (ledger.candidates.map Candidate.endpoint).Nodup
  status : ∀ candidate ∈ ledger.candidates,
    candidate.status = (standing past candidate.endpoint).status
  opened : ∀ endpoint, standing past endpoint ≠ .unopened →
    endpoint ∈ ledger.candidates.map Candidate.endpoint
  found : ∀ endpoint, some endpoint ∈ past.map foundEndpoint →
    ledger.isSettled = true ∨ pairingCandidatesMax ≤ ledger.candidates.length ∨
      endpoint ∈ ledger.candidates.map Candidate.endpoint
  listed : ∀ endpoint ∈ ledger.candidates.map Candidate.endpoint,
    some endpoint ∈ past.map foundEndpoint
  open_count : ledger.candidates.countP (·.status = .opened) = if ledger.isConnected then 1 else 0
  started : ledger.candidates.countP (·.status ≠ .waiting) ≤ ledger.openings

theorem standing_kept (past : List (CandidateEvent E)) (hOpened : e.opened = none)
    (hEnds : e.ends = false) (endpoint : E) :
    standing (past ++ [e]) endpoint = standing past endpoint := by
  rw [standing_append, if_neg (by simp [hOpened]), if_neg (by simp [hEnds])]

variable {endpoint : E}

omit [DecidableEq E] in
theorem found_append : some endpoint ∈ (past ++ [e]).map foundEndpoint ↔
      some endpoint ∈ past.map foundEndpoint ∨ e.foundEndpoint = some endpoint := by
  rw [map_append, mem_append, map_singleton, mem_singleton, eq_comm (b := e.foundEndpoint)]

section Kept
variable (h : Tracks past ledger) (hSettled : ledger.isSettled = true → after.isSettled = true)
  (hFound : ∀ endpoint, e.foundEndpoint = some endpoint →
    ledger.isSettled = true ∨ pairingCandidatesMax ≤ ledger.candidates.length ∨
      endpoint ∈ ledger.candidates.map Candidate.endpoint)
include h hSettled hFound

/-- A call that keeps the endpoints. What is left to show is how their statuses
stand afterwards. -/
theorem tracks_restatused
    (hEndpoints : after.candidates.map Candidate.endpoint =
      ledger.candidates.map Candidate.endpoint)
    (hStarts : ∀ endpoint, standing (past ++ [e]) endpoint ≠ .unopened →
      standing past endpoint ≠ .unopened ∨ endpoint ∈ ledger.candidates.map Candidate.endpoint)
    (hStatus : ∀ candidate ∈ after.candidates,
      candidate.status = (standing (past ++ [e]) candidate.endpoint).status)
    (hOpen : after.candidates.countP (·.status = .opened) = if after.isConnected then 1 else 0)
    (hStarted : after.candidates.countP (·.status ≠ .waiting) ≤ after.openings) :
    Tracks (past ++ [e]) after := by
  have hLength : after.candidates.length = ledger.candidates.length := by
    simpa using congrArg length hEndpoints
  refine ⟨hEndpoints ▸ h.nodup, hStatus, ?_, ?_, ?_, hOpen, hStarted⟩
  · intro endpoint hUnopened
    rw [hEndpoints]
    rcases hStarts endpoint hUnopened with hBefore | hListed
    · exact h.opened endpoint hBefore
    · exact hListed
  · intro endpoint hMem
    rw [hEndpoints, hLength]
    refine Or.imp_left hSettled ?_
    rcases found_append.mp hMem with hMem | hMem
    · exact h.found endpoint hMem
    · exact hFound endpoint hMem
  · intro endpoint hMem
    rw [hEndpoints] at hMem
    exact found_append.mpr (.inl (h.listed endpoint hMem))

/-- A call that opens and ends nothing and leaves the candidates as they are. -/
theorem tracks_kept (hOpened : e.opened = none) (hEnds : e.ends = false)
    (hCandidates : after.candidates = ledger.candidates)
    (hOpenings : after.openings = ledger.openings)
    (hConnected : after.isConnected = ledger.isConnected) : Tracks (past ++ [e]) after := by
  have hStanding := standing_kept past hOpened hEnds
  refine tracks_restatused h hSettled hFound (by rw [hCandidates]) ?_ ?_ ?_ ?_
  · intro endpoint hStarted
    rw [hStanding] at hStarted
    exact .inl hStarted
  · intro candidate hMem
    rw [hCandidates] at hMem
    rw [hStanding, h.status candidate hMem]
  · rw [hCandidates, hConnected]
    exact h.open_count
  · rw [hCandidates, hOpenings]
    exact h.started

end Kept

theorem tracks_recorded (h : Tracks past ledger)
    (hNew : endpoint ∉ ledger.candidates.map Candidate.endpoint) :
    Tracks (past ++ [⟨ledger, .found endpoint, .recorded⟩])
      { ledger with candidates := ledger.candidates ++ [⟨endpoint, .waiting⟩] } := by
  have hStanding := standing_kept past (e := ⟨ledger, .found endpoint, .recorded⟩) rfl rfl
  have hUnopened : standing past endpoint = .unopened := by
    by_contra hStarted
    exact hNew (h.opened endpoint hStarted)
  refine ⟨?_, ?_, ?_, ?_, ?_, ?_, ?_⟩
  · exact nodup_map_snoc h.nodup fun candidate hCandidate hSame =>
      hNew (mem_map.mpr ⟨candidate, hCandidate, hSame⟩)
  · simp only [hStanding]
    exact forall_mem_snoc h.status (by rw [hUnopened]; rfl)
  · intro other hStarted
    rw [hStanding] at hStarted
    rw [map_append]
    exact mem_append_left _ (h.opened other hStarted)
  · intro other hMem
    rw [map_append, length_append]
    rcases found_append.mp hMem with hMem | hMem
    · rcases h.found other hMem with hSettled | hFull | hListed
      · exact .inl hSettled
      · exact .inr (.inl (hFull.trans (le_add_right _ _)))
      · exact .inr (.inr (mem_append_left _ hListed))
    · cases hMem
      exact .inr (.inr (mem_append_right _ (mem_singleton.mpr rfl)))
  · intro other hMem
    rw [map_append] at hMem
    rcases mem_append.mp hMem with hMem | hMem
    · exact found_append.mpr (.inl (h.listed other hMem))
    · rw [map_singleton, mem_singleton] at hMem
      exact found_append.mpr (.inr (congrArg some hMem.symm))
  · rw [countP_append]
    exact h.open_count
  · rw [countP_append]
    exact h.started

theorem tracks_opened {nowMs} (h : Tracks past ledger) (hPhase : ledger.phase = .closed)
    (hCandidate : ledger.candidates[index]? = some candidate) :
    Tracks (past ++ [⟨ledger, .nextEndpoint nowMs, .endpoint (.ok (.opened candidate.endpoint))⟩])
      { ledger with
        candidates := ledger.candidates.set index { candidate with status := .opened }
        openings := ledger.openings + 1
        phase := .opened } := by
  have hMem : candidate ∈ ledger.candidates := List.mem_of_getElem? hCandidate
  have hSet := set_eq_map h.nodup hCandidate .opened
  have hEndpoints : (ledger.candidates.set index { candidate with status := .opened }).map
      Candidate.endpoint = ledger.candidates.map Candidate.endpoint := by
    rw [hSet, List.map_map]
    refine List.map_congr_left fun other _ => ?_
    dsimp only [Function.comp_apply]
    split <;> rfl
  have hStanding : ∀ endpoint, standing (past ++
      [⟨ledger, .nextEndpoint nowMs, .endpoint (.ok (.opened candidate.endpoint))⟩]) endpoint =
        if endpoint = candidate.endpoint then .connected else standing past endpoint := by
    intro endpoint
    rw [standing_append]
    simp [opened, ends, eq_comm]
  obtain ⟨hIndex, -⟩ := List.getElem?_eq_some_iff.mp hCandidate
  have hNone : ledger.candidates.countP (·.status = .opened) = 0 := by
    rw [h.open_count]
    simp [isConnected, hPhase]
  have hUnsettled : ledger.isSettled = false := by
    simp [isSettled, hPhase]
  refine tracks_restatused h (by simp [hUnsettled]) nofun hEndpoints ?_ ?_ ?_ ?_
  · intro endpoint hStarted
    rw [hStanding] at hStarted
    by_cases hSame : endpoint = candidate.endpoint
    · exact .inr (hSame ▸ List.mem_map_of_mem hMem)
    · rw [if_neg hSame] at hStarted
      exact .inl hStarted
  · intro other hOther
    rw [hStanding]
    rw [hSet] at hOther
    obtain ⟨before, hBefore, rfl⟩ := List.mem_map.mp hOther
    by_cases hSame : before.endpoint = candidate.endpoint
    · rw [if_pos hSame]
      rw [if_pos hSame]
      rfl
    · rw [if_neg hSame, if_neg hSame]
      exact h.status before hBefore
  · rw [List.countP_set hIndex, hNone]
    simp [isConnected]
  · rw [List.countP_set hIndex]
    refine (Nat.add_le_add (Nat.sub_le _ _) ?_).trans (Nat.add_le_add_right h.started 1)
    split <;> decide

theorem tracks_ended (h : Tracks past ledger)
    (hPhase : ledger.phase = .opened ∨ ledger.phase = .trying)
    (hEnding : Ending ledger call status tried busyAnswered)
    (hCandidates : after.candidates = closeFirst status ledger.candidates)
    (hOpenings : after.openings = ledger.openings) (hConnected : after.isConnected = false) :
    Tracks (past ++ [⟨ledger, call, .next (.ok next)⟩]) after := by
  have hOne : ledger.candidates.countP (·.status = .opened) ≤ 1 := by
    rw [h.open_count]
    split <;> decide
  have hEndpoints : after.candidates.map Candidate.endpoint =
      ledger.candidates.map Candidate.endpoint := by
    rw [hCandidates, closeFirst_endpoints]
  rw [closeFirst_eq_map status hOne] at hCandidates
  have hStanding : ∀ endpoint, standing (past ++ [⟨ledger, call, .next (.ok next)⟩]) endpoint =
      (standing past endpoint).endedBy call := by
    intro endpoint
    rw [standing_append]
    rfl
  have hStatus : ∀ standing : Standing, (standing.endedBy call).status =
      if standing.status = .opened then status else standing.status := by
    intro standing
    cases hEnding <;> cases standing <;> rfl
  have hUnsettled : ledger.isSettled = false := by
    rcases hPhase with hPhase | hPhase <;> simp [isSettled, hPhase]
  have hNotOpen : status ≠ .opened ∧ status ≠ .waiting := by
    cases hEnding <;> exact ⟨nofun, nofun⟩
  refine tracks_restatused h (by simp [hUnsettled]) ?_ hEndpoints ?_ ?_ ?_ ?_
  · intro endpoint hFound
    cases hEnding <;> cases hFound
  · intro endpoint hStarted
    refine .inl fun hUnopened => hStarted ?_
    rw [hStanding, hUnopened]
    rfl
  · intro candidate hMem
    rw [hCandidates] at hMem
    obtain ⟨before, hBefore, rfl⟩ := mem_map.mp hMem
    rw [hStanding, hStatus]
    by_cases hOpen : before.status = .opened
    · rw [if_pos hOpen]
      rw [h.status before hBefore] at hOpen
      rw [if_pos hOpen]
    · rw [if_neg hOpen]
      rw [h.status before hBefore] at hOpen ⊢
      rw [if_neg hOpen]
  · rw [hConnected, if_neg Bool.false_ne_true, countP_eq_zero, hCandidates]
    intro candidate hMem
    obtain ⟨before, -, rfl⟩ := mem_map.mp hMem
    by_cases hOpen : before.status = .opened
    · simpa [hOpen] using hNotOpen.1
    · simp [hOpen]
  · rw [hOpenings, hCandidates, countP_map]
    refine le_trans (le_of_eq (countP_congr fun before _ => ?_)) h.started
    by_cases hOpen : before.status = .opened
    · simp [hOpen, hNotOpen.2]
    · simp [hOpen]

theorem tracks_step (h : Tracks past ledger) (hMove : ledger.Move call reply after) :
    Tracks (past ++ [⟨ledger, call, reply⟩]) after := by
  cases hMove with
  | refused hQuiet hCall =>
    obtain ⟨hOpened, -, hEnds⟩ := quiet_reads hQuiet
    refine tracks_kept h id (fun endpoint hFound => ?_) hOpened hEnds rfl rfl rfl
    cases call <;> cases hFound
    exact absurd rfl (hCall endpoint)
  | ignored hIgnored =>
    refine tracks_kept h id (fun endpoint hFound => ?_) rfl rfl rfl rfl rfl
    cases hFound
    exact hIgnored
  | recorded hUnsettled hRoom hNew => exact tracks_recorded h hNew
  | opened hPhase hLimit hCandidate hStatus => exact tracks_opened h hPhase hCandidate
  | begun hPhase | accepted hPhase =>
    exact tracks_kept h (by simp [isSettled, hPhase]) nofun rfl rfl rfl rfl
      (by simp [isConnected, hPhase])
  | ended hPhase hEnding hNext | reported hPhase hEnding hLeft hTried =>
    exact tracks_ended h hPhase hEnding rfl rfl rfl

end PairingCandidates

/-! The offers tried. -/

namespace PairingCandidates
/-- A try in the history, with everything after it. -/
def TriedThen (past : List (CandidateEvent E)) (offerId : OfferId)
    (later : List (CandidateEvent E)) : Prop :=
  ∃ before e, past = before ++ e :: later ∧ e.begun = some offerId

variable (later : List (CandidateEvent E))

def EndedBusy : Prop :=
  ∃ e, later.find? ends = some e ∧ e.endsBusy = true

def EndedUnbusy : Prop :=
  ∃ e, later.find? ends = some e ∧ e.endsBusy = false

/-- The offers tried, as the history tells them. A running try is the last. -/
structure Tries (past : List (CandidateEvent E)) (ledger : PairingCandidates E) : Prop where
  kept : ∀ offerId later, TriedThen past offerId later → EndedBusy later ∨ offerId ∈ ledger.tried
  running : ledger.phase = .trying → ∃ earlier last, ledger.tried = earlier ++ [last] ∧
    (∃ later, TriedThen past last later ∧ later.find? ends = none) ∧
    (∀ later, TriedThen past last later →
      EndedBusy later ∨ later.find? ends = none) ∧
    ∀ offerId ∈ earlier, ∃ later, TriedThen past offerId later ∧ EndedUnbusy later
  ended : ledger.phase ≠ .trying → ledger.phase ≠ .accepted →
    ∀ offerId ∈ ledger.tried, ∃ later, TriedThen past offerId later ∧ EndedUnbusy later
  answered : ledger.busyAnswered = true → ∃ e ∈ past, e.endsBusy = true

section Append
variable {later : List (CandidateEvent E)} {offerId : OfferId}

theorem triedThen_append : TriedThen (past ++ [e]) offerId later ↔
      (∃ earlier, later = earlier ++ [e] ∧ TriedThen past offerId earlier) ∨
        (later = [] ∧ e.begun = some offerId) := by
  constructor
  · rintro ⟨before, tried, hSplit, hTried⟩
    rcases eq_nil_or_concat later with rfl | ⟨earlier, last, rfl⟩
    · obtain ⟨rfl, hLast⟩ := append_inj' hSplit rfl
      cases hLast
      exact .inr ⟨rfl, hTried⟩
    · rw [concat_eq_append, ← cons_append, ← append_assoc] at hSplit
      obtain ⟨rfl, hLast⟩ := append_inj' hSplit rfl
      cases hLast
      exact .inl ⟨earlier, concat_eq_append, before, tried, rfl, hTried⟩
  · rintro (⟨earlier, rfl, before, tried, rfl, hTried⟩ | ⟨rfl, hTried⟩)
    · exact ⟨before, tried, by simp, hTried⟩
    · exact ⟨past, e, rfl, hTried⟩

theorem EndedBusy.append (h : EndedBusy later) : EndedBusy (later ++ [e]) := by
  obtain ⟨ending, hFind, hBusy⟩ := h
  exact ⟨ending, by rw [find?_append, hFind, some_or], hBusy⟩

theorem EndedUnbusy.append (h : EndedUnbusy later) : EndedUnbusy (later ++ [e]) := by
  obtain ⟨ending, hFind, hBusy⟩ := h
  exact ⟨ending, by rw [find?_append, hFind, some_or], hBusy⟩

/-- The first ending of a connection that was still open. -/
theorem find?_append_open (h : later.find? ends = none) :
    (later ++ [e]).find? ends = if e.ends then some e else none := by
  rw [find?_append, h, none_or, find?_singleton]

/-- A call that begins no try only lengthens what came after the others. -/
theorem triedThen_of_not_begun (hBegun : e.begun = none)
    (h : TriedThen (past ++ [e]) offerId later) :
    ∃ earlier, later = earlier ++ [e] ∧ TriedThen past offerId earlier := by
  rcases triedThen_append.mp h with hEarlier | ⟨-, hNew⟩
  · exact hEarlier
  · rw [hBegun] at hNew
    cases hNew

theorem answered_append (h : ∃ answer ∈ past, answer.endsBusy = true) :
    ∃ answer ∈ past ++ [e], answer.endsBusy = true := by
  obtain ⟨answer, hMem, hAnswer⟩ := h
  exact ⟨answer, mem_append_left _ hMem, hAnswer⟩

theorem triedUnbusy_append (h : ∃ later, TriedThen past offerId later ∧ EndedUnbusy later) :
    ∃ later, TriedThen (past ++ [e]) offerId later ∧ EndedUnbusy later := by
  obtain ⟨later, hTried, hEnded⟩ := h
  exact ⟨later ++ [e], triedThen_append.mpr (.inl ⟨later, rfl, hTried⟩), hEnded.append⟩

theorem tried_append (h : Tries past ledger) (hBegun : e.begun = none)
    (hTried : after.tried = ledger.tried) (hThen : TriedThen (past ++ [e]) offerId later) :
    EndedBusy later ∨ offerId ∈ after.tried := by
  obtain ⟨earlier, rfl, hEarlier⟩ := triedThen_of_not_begun hBegun hThen
  rw [hTried]
  exact (h.kept offerId earlier hEarlier).imp_left EndedBusy.append

end Append

/-- A call that begins and ends nothing and leaves the tries as they are. -/
theorem tries_kept (h : Tries past ledger) (hBegun : e.begun = none) (hEnds : e.ends = false)
    (hTried : after.tried = ledger.tried) (hAnswered : after.busyAnswered = ledger.busyAnswered)
    (hPhase : after.phase = .trying ↔ ledger.phase = .trying)
    (hAccepted : after.phase ≠ .accepted → ledger.phase ≠ .accepted) :
    Tries (past ++ [e]) after := by
  have hOpen : ∀ {later : List (CandidateEvent E)}, later.find? ends = none →
      (later ++ [e]).find? ends = none := by
    intro later hNone
    rw [find?_append_open hNone, hEnds]
    rfl
  refine ⟨fun _ _ => tried_append h hBegun hTried, ?_, ?_, ?_⟩
  · intro hTrying
    obtain ⟨earlier, last, hList, ⟨later, hLast, hNone⟩, hOnly, hEarlier⟩ :=
      h.running (hPhase.mp hTrying)
    refine ⟨earlier, last, hTried.trans hList, ?_, ?_, fun offerId hMem =>
      triedUnbusy_append (hEarlier offerId hMem)⟩
    · exact ⟨later ++ [e], triedThen_append.mpr (.inl ⟨later, rfl, hLast⟩), hOpen hNone⟩
    intro other hOther
    obtain ⟨before, rfl, hBefore⟩ := triedThen_of_not_begun hBegun hOther
    exact (hOnly before hBefore).imp EndedBusy.append hOpen
  · intro hNotTrying hNotAccepted offerId hMem
    rw [hTried] at hMem
    exact triedUnbusy_append
      (h.ended (fun hTrying => hNotTrying (hPhase.mpr hTrying)) (hAccepted hNotAccepted) offerId hMem)
  · exact fun hBusy => answered_append (h.answered (hAnswered ▸ hBusy))

theorem tries_begun {offer} (h : Tries past ledger) (hPhase : ledger.phase = .opened)
    (hFresh : offer.offerId ∉ ledger.tried) :
    Tries (past ++ [⟨ledger, .beginTry offer, .admitted (.ok ())⟩])
      { ledger with tried := ledger.tried ++ [offer.offerId], phase := .trying } := by
  refine ⟨?_, fun _ => ⟨ledger.tried, offer.offerId, rfl, ?_, ?_, ?_⟩,
    fun hNotTrying => absurd rfl hNotTrying, ?_⟩
  · intro offerId later hTried
    rcases triedThen_append.mp hTried with ⟨earlier, rfl, hEarlier⟩ | ⟨-, hNew⟩
    · exact (h.kept offerId earlier hEarlier).imp EndedBusy.append (mem_append_left _)
    · cases hNew
      exact .inr (mem_append_right _ (mem_singleton.mpr rfl))
  · exact ⟨[], triedThen_append.mpr (.inr ⟨rfl, rfl⟩), rfl⟩
  · intro later hTried
    rcases triedThen_append.mp hTried with ⟨earlier, rfl, hEarlier⟩ | ⟨rfl, -⟩
    · exact .inl ((h.kept _ earlier hEarlier).resolve_right hFresh).append
    · exact .inr rfl
  · intro offerId hMem
    exact triedUnbusy_append (h.ended (by simp [hPhase]) (by simp [hPhase]) offerId hMem)
  · exact fun hBusy => answered_append (h.answered hBusy)

/-- A running try ends with its connection: a busy answer takes it out of the
ledger, anything else leaves it there for good. -/
theorem tries_ended (h : Tries past ledger)
    (hPhase : ledger.phase = .opened ∨ ledger.phase = .trying)
    (hEnding : Ending ledger call status tried busyAnswered) (hTried : after.tried = tried)
    (hAnswered : after.busyAnswered = busyAnswered) (hAfter : after.phase ≠ .trying) :
    Tries (past ++ [⟨ledger, call, .next (.ok next)⟩]) after := by
  have hOpen : ∀ {later : List (CandidateEvent E)}, later.find? ends = none →
      find? ends (later ++ [⟨ledger, call, .next (.ok next)⟩]) =
        some ⟨ledger, call, .next (.ok next)⟩ := fun hNone => find?_append_open hNone
  have hBegun : begun ⟨ledger, call, .next (.ok next)⟩ = none := by
    cases call <;> rfl
  have hBusy : after.busyAnswered = true →
      ∃ e ∈ past ++ [⟨ledger, call, .next (.ok next)⟩], endsBusy e = true := by
    intro hBusy
    cases hEnding with
    | closed => exact answered_append (h.answered (hAnswered ▸ hBusy))
    | busy => exact ⟨_, mem_append_right _ (mem_singleton.mpr rfl), rfl⟩
  rcases hPhase with hPhase | hPhase
  · have hSame : after.tried = ledger.tried := by
      cases hEnding <;> simp [hTried, hPhase]
    refine ⟨fun _ _ => tried_append h hBegun hSame, fun hTrying => absurd hTrying hAfter, ?_, hBusy⟩
    intro _ _ offerId hMem
    rw [hSame] at hMem
    exact triedUnbusy_append (h.ended (by simp [hPhase]) (by simp [hPhase]) offerId hMem)
  obtain ⟨earlier, last, hList, ⟨later, hLast, hNone⟩, hOnly, hEnded⟩ := h.running hPhase
  cases hEnding with
  | closed =>
    refine ⟨fun _ _ => tried_append h hBegun hTried, fun hTrying => absurd hTrying hAfter, ?_, hBusy⟩
    intro _ _ offerId hMem
    rw [hTried, hList] at hMem
    rcases mem_append.mp hMem with hMem | hMem
    · exact triedUnbusy_append (hEnded offerId hMem)
    · rw [mem_singleton.mp hMem]
      exact ⟨_, triedThen_append.mpr (.inl ⟨later, rfl, hLast⟩), _, hOpen hNone, rfl⟩
  | busy retryAfterMs nowMs =>
    rw [if_pos hPhase, hList, dropLast_concat] at hTried
    refine ⟨?_, fun hTrying => absurd hTrying hAfter, ?_, hBusy⟩
    · intro offerId later hThen
      obtain ⟨before, rfl, hBefore⟩ := triedThen_of_not_begun hBegun hThen
      rw [hTried]
      rcases h.kept offerId before hBefore with hBusy | hMem
      · exact .inl hBusy.append
      rw [hList] at hMem
      rcases mem_append.mp hMem with hMem | hMem
      · exact .inr hMem
      rw [mem_singleton.mp hMem] at hBefore
      rcases hOnly before hBefore with hBusy | hNone
      · exact .inl hBusy.append
      · exact .inl ⟨_, hOpen hNone, rfl⟩
    · intro _ _ offerId hMem
      rw [hTried] at hMem
      exact triedUnbusy_append (hEnded offerId hMem)

theorem tries_step (h : Tries past ledger) (hMove : ledger.Move call reply after) :
    Tries (past ++ [⟨ledger, call, reply⟩]) after := by
  cases hMove with
  | refused hQuiet hCall =>
    obtain ⟨-, hBegun, hEnds⟩ := quiet_reads hQuiet
    exact tries_kept h hBegun hEnds rfl rfl Iff.rfl id
  | ignored hIgnored | recorded => exact tries_kept h rfl rfl rfl rfl Iff.rfl id
  | opened hPhase =>
    exact tries_kept h rfl rfl rfl rfl (by simp [hPhase]) (by simp [hPhase])
  | begun hPhase hFresh => exact tries_begun h hPhase hFresh
  | ended hPhase hEnding hNext | reported hPhase hEnding hLeft hTried =>
    exact tries_ended h hPhase hEnding rfl rfl nofun
  | accepted hPhase =>
    exact ⟨fun _ _ => tried_append h rfl rfl, nofun, fun _ hNotAccepted => absurd rfl hNotAccepted,
      fun hBusy => answered_append (h.answered hBusy)⟩

end PairingCandidates

end RefineId.Rapp
