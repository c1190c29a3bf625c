import RefineId.Rapp.Offer
import RefineId.Semantics.Run

/-! The tries of one typed pairing code across the custodians found in pairing
mode (`crates/rapp/src/pairing_candidates.rs`). The ledger says which endpoint
to open next, which offers CPace may run on, and when the code is refused. -/
namespace RefineId.Rapp

open Data Semantics List

/-- Pairing connections one typed code may open. -/
def pairingCandidatesMax : Nat := 8

inductive CandidatePhase where
  | closed
  | opened
  | trying
  | accepted
  | notAccepted
  deriving DecidableEq

inductive EndpointStatus where
  | waiting
  | opened
  | deferred (notBeforeMs : UInt64)
  | done
  deriving DecidableEq

structure Candidate (E : Type) where
  endpoint : E
  status : EndpointStatus
  deriving DecidableEq

structure PairingCandidates (E : Type) where
  candidates : List (Candidate E)
  openings : Nat
  tried : List OfferId
  busyAnswered : Bool
  phase : CandidatePhase
  deriving DecidableEq

/-- What follows a connection that closed without the code being taken. -/
inductive NextCandidate where
  | tryNext
  | deferred
  | notAccepted
  | noneTried
  deriving DecidableEq

inductive NextEndpoint (E : Type) where
  | opened (endpoint : E)
  | notBefore (atMs : UInt64)
  | exhausted
  deriving DecidableEq

inductive CandidateError where
  | connectionOpen
  | noConnection
  | noTry
  | offerAlreadyTried
  | settled
  deriving DecidableEq

variable {E : Type} {ledger : PairingCandidates E} {index : Nat}

namespace PairingCandidates

def new {E : Type} : PairingCandidates E :=
  ⟨[], 0, [], false, .closed⟩

section Queries
variable (ledger : PairingCandidates E)

def isSettled : Bool :=
  ledger.phase = .accepted || ledger.phase = .notAccepted

/-- The first endpoint found and not yet opened. -/
def waitingIndex : Option Nat :=
  ledger.candidates.findIdx? (·.status = .waiting)

/-- The endpoints that answered busy, each with the earliest time of its
reopening. -/
def deferrals : List (UInt64 × Nat) :=
  ledger.candidates.zipIdx.filterMap fun entry =>
    match entry.1.status with
    | .deferred notBeforeMs => some (notBeforeMs, entry.2)
    | _ => none

def earlier (left right : UInt64 × Nat) : UInt64 × Nat :=
  if right.1 < left.1 ∨ (right.1 = left.1 ∧ right.2 < left.2) then right else left

def earliestDeferred : Option (UInt64 × Nat) :=
  match ledger.deferrals with
  | [] => none
  | first :: rest => some (rest.foldl earlier first)

end Queries

theorem mem_deferrals {notBeforeMs} : (notBeforeMs, index) ∈ ledger.deferrals ↔
      ∃ candidate, ledger.candidates[index]? = some candidate ∧
        candidate.status = .deferred notBeforeMs := by
  simp only [deferrals, mem_filterMap, Prod.exists, mem_zipIdx_iff_getElem?]
  constructor
  · rintro ⟨candidate, place, hCandidate, hStatus⟩
    cases hFound : candidate.status <;> simp [hFound] at hStatus
    obtain ⟨rfl, rfl⟩ := hStatus
    exact ⟨candidate, hCandidate, hFound⟩
  · rintro ⟨candidate, hCandidate, hStatus⟩
    exact ⟨candidate, index, hCandidate, by rw [hStatus]⟩

theorem foldl_earlier_mem (first : UInt64 × Nat) (rest : List (UInt64 × Nat)) :
    rest.foldl earlier first ∈ first :: rest := by
  induction rest generalizing first with
  | nil => exact mem_cons_self
  | cons next rest ih =>
    have hNext : earlier first next = first ∨ earlier first next = next := by
      unfold earlier
      split
      · exact .inr rfl
      · exact .inl rfl
    rcases mem_cons.mp (ih (earlier first next)) with hHead | hTail
    · rw [foldl_cons, hHead]
      rcases hNext with hFirst | hSecond
      · rw [hFirst]
        exact mem_cons_self
      · rw [hSecond]
        exact mem_cons_of_mem _ mem_cons_self
    · exact mem_cons_of_mem _ (mem_cons_of_mem _ hTail)

theorem earliestDeferred_mem {earliest} (h : ledger.earliestDeferred = some earliest) :
    earliest ∈ ledger.deferrals := by
  unfold earliestDeferred at h
  cases hDeferrals : ledger.deferrals with
  | nil => simp [hDeferrals] at h
  | cons first rest =>
    simp only [hDeferrals, Option.some.injEq] at h
    exact h ▸ foldl_earlier_mem first rest

section Calls
variable (ledger : PairingCandidates E)

def found [DecidableEq E] (endpoint : E) : PairingCandidates E :=
  if ledger.isSettled || decide (pairingCandidatesMax ≤ ledger.candidates.length) ||
      ledger.candidates.any (·.endpoint = endpoint) then ledger
  else { ledger with candidates := ledger.candidates ++ [⟨endpoint, .waiting⟩] }

def openAt (index : Nat) : Except CandidateError (NextEndpoint E) × PairingCandidates E :=
  match ledger.candidates[index]? with
  | none => (.ok .exhausted, ledger)
  | some candidate =>
    (.ok (.opened candidate.endpoint), { ledger with
        candidates := ledger.candidates.set index { candidate with status := .opened }
        openings := ledger.openings + 1
        phase := .opened })

def nextEndpoint (nowMs : UInt64) : Except CandidateError (NextEndpoint E) × PairingCandidates E :=
  match ledger.phase with
  | .opened | .trying => (.error .connectionOpen, ledger)
  | .accepted | .notAccepted => (.error .settled, ledger)
  | .closed =>
    if pairingCandidatesMax ≤ ledger.openings then (.ok .exhausted, ledger)
    else
      match ledger.waitingIndex, ledger.earliestDeferred with
      | some index, _ => ledger.openAt index
      | none, some (notBeforeMs, index) =>
        if notBeforeMs ≤ nowMs then ledger.openAt index
        else (.ok (.notBefore notBeforeMs), ledger)
      | none, none => (.ok .exhausted, ledger)

/-- Admit the offer of the open connection, before CPace runs on it. -/
def beginTry (offer : PairingOffer) : Except CandidateError Unit × PairingCandidates E :=
  match ledger.phase with
  | .closed | .trying => (.error .noConnection, ledger)
  | .accepted | .notAccepted => (.error .settled, ledger)
  | .opened =>
    if ledger.tried.contains offer.offerId then (.error .offerAlreadyTried, ledger)
    else
      (.ok (), { ledger with tried := ledger.tried ++ [offer.offerId], phase := .trying })

def closeFirst (status : EndpointStatus) : List (Candidate E) → List (Candidate E)
  | [] => []
  | candidate :: rest =>
    if candidate.status = .opened then { candidate with status } :: rest
    else candidate :: closeFirst status rest

def endConnection (status : EndpointStatus) : Except CandidateError (PairingCandidates E) :=
  match ledger.phase with
  | .closed => .error .noConnection
  | .accepted | .notAccepted => .error .settled
  | .opened | .trying =>
    .ok { ledger with candidates := closeFirst status ledger.candidates, phase := .closed }

/-- What follows a closed connection: the next opening while an endpoint is
left within the limit, otherwise the report. -/
def afterConnection (next : NextCandidate) : NextCandidate × PairingCandidates E :=
  if ledger.candidates.any (·.status ≠ .done) && decide (ledger.openings < pairingCandidatesMax) then
    (next, ledger)
  else if ledger.tried.isEmpty && !ledger.busyAnswered then (.noneTried, ledger)
  else (.notAccepted, { ledger with phase := .notAccepted })

def closed : Except CandidateError NextCandidate × PairingCandidates E :=
  match ledger.endConnection .done with
  | .error error => (.error error, ledger)
  | .ok ended =>
    let (next, after) := ended.afterConnection .tryNext
    (.ok next, after)

/-- The custodian answered busy: its offer is given back, and its endpoint is
kept for another opening. -/
def busy (retryAfterMs nowMs : UInt64) : Except CandidateError NextCandidate × PairingCandidates E :=
  match ledger.endConnection (.deferred (saturatingAdd nowMs retryAfterMs)) with
  | .error error => (.error error, ledger)
  | .ok ended =>
    let tried := if ledger.phase = .trying then ended.tried.dropLast else ended.tried
    let (next, after) := { ended with tried, busyAnswered := true }.afterConnection .deferred
    (.ok next, after)

/-- The custodian tried proved that it holds the code. -/
def accepted : Except CandidateError Unit × PairingCandidates E :=
  match ledger.phase with
  | .trying => (.ok (), { ledger with phase := .accepted })
  | .closed | .opened => (.error .noTry, ledger)
  | .accepted | .notAccepted => (.error .settled, ledger)

end Calls

end PairingCandidates

inductive CandidateCall (E : Type) where
  | found (endpoint : E)
  | nextEndpoint (nowMs : UInt64)
  | beginTry (offer : PairingOffer)
  | closed
  | busy (retryAfterMs nowMs : UInt64)
  | accepted

inductive CandidateReply (E : Type) where
  | recorded
  | endpoint (outcome : Except CandidateError (NextEndpoint E))
  | admitted (outcome : Except CandidateError Unit)
  | next (outcome : Except CandidateError NextCandidate)

namespace PairingCandidates
def step [DecidableEq E] (ledger : PairingCandidates E) :
    CandidateCall E → CandidateReply E × PairingCandidates E
  | .found endpoint => (.recorded, ledger.found endpoint)
  | .nextEndpoint nowMs => (.endpoint (ledger.nextEndpoint nowMs).1, (ledger.nextEndpoint nowMs).2)
  | .beginTry offer => (.admitted (ledger.beginTry offer).1, (ledger.beginTry offer).2)
  | .closed => (.next ledger.closed.1, ledger.closed.2)
  | .busy retryAfterMs nowMs =>
    (.next (ledger.busy retryAfterMs nowMs).1, (ledger.busy retryAfterMs nowMs).2)
  | .accepted => (.admitted ledger.accepted.1, ledger.accepted.2)

/-! What one call can do. -/

/-- A reply that opens, admits and ends nothing. -/
def Quiet : CandidateReply E → Prop
  | .recorded => True
  | .endpoint (.ok (.opened _)) => False
  | .endpoint _ => True
  | .admitted outcome => ∃ error, outcome = .error error
  | .next outcome => ∃ error, outcome = .error error

def ended (ledger : PairingCandidates E) (status : EndpointStatus) (tried : List OfferId)
    (busyAnswered : Bool) : PairingCandidates E :=
  ⟨closeFirst status ledger.candidates, ledger.openings, tried, busyAnswered, .closed⟩

/-- How the two calls that end a connection differ. -/
inductive Ending (ledger : PairingCandidates E) :
    CandidateCall E → EndpointStatus → List OfferId → Bool → Prop where
  | closed : Ending ledger .closed .done ledger.tried ledger.busyAnswered
  | busy (retryAfterMs nowMs : UInt64) :
      Ending ledger (.busy retryAfterMs nowMs) (.deferred (saturatingAdd nowMs retryAfterMs))
        (if ledger.phase = .trying then ledger.tried.dropLast else ledger.tried) true

inductive Move (ledger : PairingCandidates E) :
    CandidateCall E → CandidateReply E → PairingCandidates E → Prop where
  | refused {call : CandidateCall E} {reply : CandidateReply E} (hQuiet : Quiet reply)
      (hCall : ∀ endpoint, call ≠ .found endpoint) : Move ledger call reply ledger
  | ignored {endpoint : E}
      (hIgnored : ledger.isSettled = true ∨ pairingCandidatesMax ≤ ledger.candidates.length ∨
        endpoint ∈ ledger.candidates.map Candidate.endpoint) :
      Move ledger (.found endpoint) .recorded ledger
  | recorded {endpoint : E} (hUnsettled : ledger.isSettled = false)
      (hRoom : ledger.candidates.length < pairingCandidatesMax)
      (hNew : endpoint ∉ ledger.candidates.map Candidate.endpoint) :
      Move ledger (.found endpoint) .recorded
        { ledger with candidates := ledger.candidates ++ [⟨endpoint, .waiting⟩] }
  | opened {nowMs : UInt64} {index : Nat} {candidate : Candidate E} (hPhase : ledger.phase = .closed)
      (hLimit : ledger.openings < pairingCandidatesMax)
      (hCandidate : ledger.candidates[index]? = some candidate)
      (hStatus : candidate.status = .waiting ∨
        ∃ notBeforeMs, candidate.status = .deferred notBeforeMs ∧ notBeforeMs ≤ nowMs ∧
          ∀ other ∈ ledger.candidates, other.status ≠ .waiting) :
      Move ledger (.nextEndpoint nowMs) (.endpoint (.ok (.opened candidate.endpoint))) { ledger with
          candidates := ledger.candidates.set index { candidate with status := .opened }
          openings := ledger.openings + 1
          phase := .opened }
  | begun {offer : PairingOffer} (hPhase : ledger.phase = .opened)
      (hFresh : offer.offerId ∉ ledger.tried) :
      Move ledger (.beginTry offer) (.admitted (.ok ()))
        { ledger with tried := ledger.tried ++ [offer.offerId], phase := .trying }
  | ended {call : CandidateCall E} {status : EndpointStatus} {tried : List OfferId}
      {busyAnswered : Bool} {next : NextCandidate} (hPhase : ledger.phase = .opened ∨ ledger.phase = .trying)
      (hEnding : Ending ledger call status tried busyAnswered) (hNext : next ≠ .notAccepted) :
      Move ledger call (.next (.ok next)) (ledger.ended status tried busyAnswered)
  | reported {call : CandidateCall E} {status : EndpointStatus} {tried : List OfferId}
      {busyAnswered : Bool} (hPhase : ledger.phase = .opened ∨ ledger.phase = .trying)
      (hEnding : Ending ledger call status tried busyAnswered)
      (hLeft : (∀ candidate ∈ closeFirst status ledger.candidates, candidate.status = .done) ∨
        pairingCandidatesMax ≤ ledger.openings)
      (hTried : tried ≠ [] ∨ busyAnswered = true) :
      Move ledger call (.next (.ok .notAccepted))
        { ledger.ended status tried busyAnswered with phase := .notAccepted }
  | accepted (hPhase : ledger.phase = .trying) :
      Move ledger .accepted (.admitted (.ok ())) { ledger with phase := .accepted }

theorem nextEndpoint_move (ledger : PairingCandidates E) (nowMs : UInt64) :
    ledger.Move (.nextEndpoint nowMs) (.endpoint (ledger.nextEndpoint nowMs).1)
      (ledger.nextEndpoint nowMs).2 := by
  unfold nextEndpoint
  cases hPhase : ledger.phase with
  | opened | trying | accepted | notAccepted => exact .refused trivial nofun
  | closed =>
    dsimp only
    split
    case isTrue => exact .refused trivial nofun
    case isFalse hLimit =>
        have hLimit := Nat.lt_of_not_le hLimit
        cases hWaiting : ledger.waitingIndex with
        | some index =>
          obtain ⟨hIndex, hStatus, -⟩ := findIdx?_eq_some_iff_getElem.mp hWaiting
          simp only [openAt, getElem?_eq_getElem hIndex]
          exact .opened hPhase hLimit (getElem?_eq_getElem hIndex) (.inl (by simpa using hStatus))
        | none =>
          cases hEarliest : ledger.earliestDeferred with
          | none => exact .refused trivial nofun
          | some earliest =>
            obtain ⟨notBeforeMs, index⟩ := earliest
            dsimp only
            split
            case isTrue hTime =>
                obtain ⟨candidate, hCandidate, hStatus⟩ :=
                  mem_deferrals.mp (earliestDeferred_mem hEarliest)
                simp only [openAt, hCandidate]
                exact .opened hPhase hLimit hCandidate
                  (.inr ⟨notBeforeMs, hStatus, hTime, by simpa [waitingIndex] using hWaiting⟩)
            case isFalse => exact .refused trivial nofun

variable {status : EndpointStatus}

theorem afterConnection_move {call tried busyAnswered next} (hPhase : ledger.phase = .opened ∨ ledger.phase = .trying)
    (hEnding : Ending ledger call status tried busyAnswered) (hNext : next ≠ .notAccepted) :
    let after := (ledger.ended status tried busyAnswered).afterConnection next
    ledger.Move call (.next (.ok after.1)) after.2 := by
  intro after
  unfold after afterConnection
  split
  case isTrue => exact .ended hPhase hEnding hNext
  case isFalse hLeft =>
      split
      case isTrue => exact .ended hPhase hEnding nofun
      case isFalse hTried =>
          refine .reported hPhase hEnding ?_ ?_
          · simp only [Bool.and_eq_true, List.any_eq_true, decide_eq_true_eq, not_and, not_lt] at hLeft
            by_cases hDone : ∀ candidate ∈ closeFirst status ledger.candidates,
                candidate.status = .done
            · exact .inl hDone
            simp only [not_forall] at hDone
            obtain ⟨candidate, hMem, hStatus⟩ := hDone
            exact .inr (hLeft ⟨candidate, hMem, hStatus⟩)
          · simp only [ended, Bool.and_eq_true, List.isEmpty_iff, Bool.not_eq_true', not_and,
              Bool.not_eq_false] at hTried
            by_cases hEmpty : tried = []
            · exact .inr (hTried hEmpty)
            · exact .inl hEmpty

theorem endConnection_eq_error (status : EndpointStatus)
    (h : ¬ (ledger.phase = .opened ∨ ledger.phase = .trying)) :
    ∃ error, ledger.endConnection status = .error error := by
  unfold endConnection
  cases hPhase : ledger.phase <;> simp_all

theorem endConnection_eq_ok (h : ledger.phase = .opened ∨ ledger.phase = .trying) :
    ledger.endConnection status = .ok (ledger.ended status ledger.tried ledger.busyAnswered) := by
  rcases h with h | h <;> simp [endConnection, ended, h]

/-- Every call is one of the moves. -/
theorem step_move [DecidableEq E] (ledger : PairingCandidates E) (call : CandidateCall E) :
    ledger.Move call (step ledger call).1 (step ledger call).2 := by
  cases call with
  | found endpoint =>
    simp only [step, found]
    split
    case isTrue h =>
        simp only [Bool.or_eq_true, decide_eq_true_eq, any_eq_true, or_assoc] at h
        refine .ignored (h.imp_right (Or.imp_right ?_))
        rintro ⟨candidate, hMem, hEndpoint⟩
        exact mem_map.mpr ⟨candidate, hMem, hEndpoint⟩
    case isFalse h =>
        simp only [Bool.or_eq_true, decide_eq_true_eq, any_eq_true, not_or, not_le,
          not_exists, not_and, Bool.not_eq_true] at h
        refine .recorded h.1.1 h.1.2 ?_
        intro hMem
        obtain ⟨candidate, hMem, hEndpoint⟩ := mem_map.mp hMem
        exact h.2 candidate hMem hEndpoint
  | nextEndpoint nowMs => exact ledger.nextEndpoint_move nowMs
  | beginTry offer =>
    simp only [step, beginTry]
    cases hPhase : ledger.phase with
    | closed | trying | accepted | notAccepted => exact .refused ⟨_, rfl⟩ (by simp)
    | opened =>
      dsimp only
      split
      case isTrue => exact .refused ⟨_, rfl⟩ (by simp)
      case isFalse hFresh => exact .begun hPhase (by simpa using hFresh)
  | closed =>
    by_cases hPhase : ledger.phase = .opened ∨ ledger.phase = .trying
    · simp only [step, closed, endConnection_eq_ok hPhase]
      exact afterConnection_move hPhase .closed (by simp)
    · obtain ⟨error, hError⟩ := endConnection_eq_error .done hPhase
      simp only [step, closed, hError]
      exact .refused ⟨_, rfl⟩ (by simp)
  | busy retryAfterMs nowMs =>
    by_cases hPhase : ledger.phase = .opened ∨ ledger.phase = .trying
    · simp only [step, busy, endConnection_eq_ok hPhase]
      exact afterConnection_move hPhase (.busy retryAfterMs nowMs) (by simp)
    obtain ⟨error, hError⟩ := endConnection_eq_error
      (.deferred (saturatingAdd nowMs retryAfterMs)) hPhase
    simp only [step, busy, hError]
    exact .refused ⟨_, rfl⟩ (by simp)
  | accepted =>
    simp only [step, accepted]
    cases hPhase : ledger.phase with
    | trying => exact .accepted hPhase
    | closed | opened | accepted | notAccepted => exact .refused ⟨_, rfl⟩ (by simp)

end PairingCandidates

end RefineId.Rapp
