import RefineId.Rapp.Message
import RefineId.Semantics.Run

/-! Session liveness (`crates/rapp/src/liveness.rs`). The clock of a run is
given by the time that passed before each call, so it never goes back. -/
namespace RefineId.Rapp

open Data Semantics

def livenessPingAfterSilenceMs : Nat := 5000

def sessionSilenceLimitMs : Nat := 30000

structure LivenessTracker where
  lastHeardMs : Nat
  lastPingMs : Option Nat
  outstanding : Option PingChallenge
  closed : Bool

inductive LivenessDecision where
  | noAction
  | sendPing (challenge : PingChallenge)
  | closeSession
  | alreadyClosed
  deriving DecidableEq

inductive PongDisposition where
  | accepted
  | ignoredUnmatched
  deriving DecidableEq

namespace LivenessTracker

def new (nowMs : Nat) : LivenessTracker := ⟨nowMs, none, none, false⟩

variable (tracker : LivenessTracker)

def heard (nowMs : Nat) : LivenessTracker :=
  { tracker with lastHeardMs := nowMs, lastPingMs := none }

def poll (nowMs : Nat) (nextChallenge : PingChallenge) : LivenessDecision × LivenessTracker :=
  if tracker.closed then (.alreadyClosed, tracker)
  else
    let silence := nowMs - tracker.lastHeardMs
    if sessionSilenceLimitMs ≤ silence then (.closeSession, { tracker with closed := true })
    else
      let sincePing := tracker.lastPingMs.elim silence (nowMs - ·)
      if livenessPingAfterSilenceMs ≤ silence ∧ livenessPingAfterSilenceMs ≤ sincePing then
        (.sendPing nextChallenge,
          { tracker with lastPingMs := some nowMs, outstanding := some nextChallenge })
      else (.noAction, tracker)

def receivePong (nowMs : Nat) (challenge : PingChallenge) : PongDisposition × LivenessTracker :=
  if tracker.outstanding ≠ some challenge then (.ignoredUnmatched, tracker)
  else (.accepted, { tracker with outstanding := none }.heard nowMs)

def close : LivenessTracker := { tracker with closed := true }

end LivenessTracker

inductive LivenessCall where
  | heard
  | poll (nextChallenge : PingChallenge)
  | receivePong (challenge : PingChallenge)
  | close

inductive LivenessReply where
  | done
  | polled (decision : LivenessDecision)
  | pong (disposition : PongDisposition)
  deriving DecidableEq

structure TimedTracker where
  tracker : LivenessTracker
  nowMs : Nat

structure TimedCall where
  elapsedMs : Nat
  call : LivenessCall

abbrev LivenessEvent := Event TimedTracker TimedCall LivenessReply

def TimedTracker.new (nowMs : Nat) : TimedTracker := ⟨.new nowMs, nowMs⟩

def TimedTracker.step (state : TimedTracker) (timed : TimedCall) : LivenessReply × TimedTracker :=
  let nowMs := state.nowMs + timed.elapsedMs
  match timed.call with
  | .heard => (.done, ⟨state.tracker.heard nowMs, nowMs⟩)
  | .poll nextChallenge =>
    let (decision, tracker) := state.tracker.poll nowMs nextChallenge
    (.polled decision, ⟨tracker, nowMs⟩)
  | .receivePong challenge =>
    let (disposition, tracker) := state.tracker.receivePong nowMs challenge
    (.pong disposition, ⟨tracker, nowMs⟩)
  | .close => (.done, ⟨state.tracker.close, nowMs⟩)

namespace LivenessEvent

def nowMs (e : LivenessEvent) : Nat := e.state.nowMs + e.call.elapsedMs

variable (e : LivenessEvent)

/-- A message heard from the peer, or the pong that was asked for. -/
def Inbound : Prop :=
  e.call.call = .heard ∨ e.reply = .pong .accepted

/-- A poll at which the peer has been silent for the limit. -/
def Due : Prop :=
  (∃ nextChallenge, e.call.call = .poll nextChallenge) ∧
    e.state.tracker.lastHeardMs + sessionSilenceLimitMs ≤ e.nowMs

def Pings : Prop := ∃ challenge, e.reply = .polled (.sendPing challenge)

/-- What ends a session: a poll that is due, or the owner closing it. -/
def Ends : Prop := e.Due ∨ e.call.call = .close

end LivenessEvent

/-- When the last inbound message of a run was recorded. -/
inductive LastInbound (startMs : Nat) : List LivenessEvent → Nat → Prop where
  | start : LastInbound startMs [] startMs
  | inbound {past : List LivenessEvent} {e : LivenessEvent} (h : e.Inbound) :
    LastInbound startMs (past ++ [e]) e.nowMs
  | other {past : List LivenessEvent} {e : LivenessEvent} {atMs : Nat} (h : ¬e.Inbound)
    (rest : LastInbound startMs past atMs) : LastInbound startMs (past ++ [e]) atMs

structure Tracks (startMs : Nat) (past : List LivenessEvent) (state : TimedTracker) : Prop where
  heard : LastInbound startMs past state.tracker.lastHeardMs
  clock : state.tracker.lastHeardMs ≤ state.nowMs
  ping : ∀ pingMs, state.tracker.lastPingMs = some pingMs → pingMs ≤ state.nowMs
  closed : state.tracker.closed = true ↔ ∃ e ∈ past, e.Ends
  pinged : ∀ e ∈ past, e.Pings → e.nowMs ≤ state.tracker.lastHeardMs ∨
    ∃ pingMs, state.tracker.lastPingMs = some pingMs ∧ e.nowMs ≤ pingMs

open TimedTracker

section Steps
variable {startMs : Nat} {past : List LivenessEvent} {state : TimedTracker} {call : TimedCall}
  {reply : LivenessReply} {tracker : LivenessTracker}

theorem exists_ends_append (e : LivenessEvent) :
    (∃ other ∈ past ++ [e], other.Ends) ↔ (∃ other ∈ past, other.Ends) ∨ e.Ends := by
  simp [or_and_right, exists_or]

section
variable (h : Tracks startMs past state)
include h

theorem Tracks.le_now {e} (hMem : e ∈ past)
    (hPings : e.Pings) : e.nowMs ≤ state.nowMs := by
  rcases h.pinged e hMem hPings with hHeard | ⟨pingMs, hPing, hLe⟩
  · exact hHeard.trans h.clock
  · exact hLe.trans (h.ping pingMs hPing)

/-- A call that hears nothing and sends nothing. -/
theorem Tracks.quiet (e : LivenessEvent)
    (he : e = ⟨state, call, reply⟩) (hInbound : ¬e.Inbound) (hPings : ¬e.Pings)
    (hHeard : tracker.lastHeardMs = state.tracker.lastHeardMs)
    (hPing : tracker.lastPingMs = state.tracker.lastPingMs)
    (hClosed : tracker.closed = true ↔ state.tracker.closed = true ∨ e.Ends) :
    Tracks startMs (past ++ [e]) ⟨tracker, e.nowMs⟩ where
  heard := .other hInbound (hHeard ▸ h.heard)
  clock := he ▸ hHeard ▸ Nat.le_add_right_of_le h.clock
  ping pingMs hPingMs := he ▸ Nat.le_add_right_of_le (h.ping pingMs (hPing ▸ hPingMs))
  closed := by rw [exists_ends_append, ← h.closed, hClosed]
  pinged := by
    rw [hHeard, hPing]
    exact forall_mem_snoc h.pinged (absurd · hPings)

/-- A call that hears the peer. -/
theorem Tracks.inbound (e : LivenessEvent)
    (he : e = ⟨state, call, reply⟩) (hInbound : e.Inbound) (hPings : ¬e.Pings) (hEnds : ¬e.Ends)
    (hHeard : tracker.lastHeardMs = e.nowMs) (hPing : tracker.lastPingMs = none)
    (hClosed : tracker.closed = state.tracker.closed) :
    Tracks startMs (past ++ [e]) ⟨tracker, e.nowMs⟩ where
  heard := by
    rw [hHeard]
    exact .inbound hInbound
  clock := hHeard.le
  ping pingMs hPingMs := by simp [hPing] at hPingMs
  closed := by rw [exists_ends_append, ← h.closed, hClosed, or_iff_left hEnds]
  pinged := by
    refine forall_mem_snoc (fun other hOther hPinged => .inl ?_) (absurd · hPings)
    rw [hHeard, he]
    exact Nat.le_add_right_of_le (h.le_now hOther hPinged)

end

/-- What a call answers, by the silence and the pings before it. -/
structure Answered (past : List LivenessEvent) (e : LivenessEvent) : Prop where
  closes : e.reply = .polled .closeSession ↔ e.Due ∧ ∀ earlier ∈ past, ¬earlier.Ends
  pings : e.Pings → (∀ earlier ∈ past, ¬earlier.Ends) ∧ ¬e.Due ∧
    e.state.tracker.lastHeardMs + livenessPingAfterSilenceMs ≤ e.nowMs ∧
    ∀ earlier ∈ past, earlier.Pings → earlier.nowMs + livenessPingAfterSilenceMs ≤ e.nowMs

open LivenessEvent

/-- A poll keeps the timing, and answers by it. -/
theorem Tracks.poll (h : Tracks startMs past state) {elapsedMs next}
    (e : LivenessEvent) (he : e = event step state ⟨elapsedMs, .poll next⟩) :
    Tracks startMs (past ++ [e]) (step state ⟨elapsedMs, .poll next⟩).2 ∧
      Answered past e := by
  have hOpen : (∀ earlier ∈ past, ¬earlier.Ends) ↔ state.tracker.closed = false := by
    rw [← Bool.not_eq_true, h.closed, not_exists]
    simp only [not_and]
  have hInbound : ¬e.Inbound := by simp [Inbound, he, event, step]
  have hEnds : e.Ends ↔ e.Due := by simp [Ends, he, event]
  have hNow : e.nowMs = state.nowMs + elapsedMs := by rw [he]; rfl
  have hDue : e.Due ↔ state.tracker.lastHeardMs + sessionSilenceLimitMs ≤ e.nowMs := by
    simp [Due, he, event]
  have hSilence (limitMs sinceMs : Nat) (hPos : 0 < limitMs) :
      limitMs ≤ e.nowMs - sinceMs ↔ sinceMs + limitMs ≤ e.nowMs := by omega
  have hReply : e.reply = .polled (state.tracker.poll e.nowMs next).1 := by rw [hNow, he]; rfl
  change Tracks startMs _ ⟨(state.tracker.poll (state.nowMs + elapsedMs) next).2, _⟩ ∧ _
  rw [← hNow]
  unfold LivenessTracker.poll at hReply ⊢
  dsimp only at hReply ⊢
  split at hReply
  · rename_i hClosed
    simp only [hClosed, if_true]
    exact ⟨h.quiet e he hInbound (by simp [Pings, hReply]) rfl rfl (by simp [hClosed]),
      by simp [hReply, hOpen, hClosed], by simp [Pings, hReply]⟩
  rename_i hClosed
  rw [if_neg hClosed]
  rw [Bool.not_eq_true] at hClosed
  split at hReply
  · rename_i hSilent
    rw [if_pos hSilent]
    rw [hSilence _ _ (by decide), ← hDue] at hSilent
    exact ⟨h.quiet e he hInbound (by simp [Pings, hReply]) rfl rfl
      (by simp [hEnds, hSilent]), by simp [hReply, hOpen, hClosed, hSilent],
      by simp [Pings, hReply]⟩
  rename_i hEarly
  rw [if_neg hEarly]
  rw [hSilence _ _ (by decide), ← hDue] at hEarly
  split at hReply
  · rename_i hPing
    rw [if_pos hPing]
    refine ⟨⟨.other hInbound h.heard, hNow ▸ Nat.le_add_right_of_le h.clock, ?_, ?_, ?_⟩,
      by simp [hReply, hEarly], fun _ => ⟨hOpen.mpr hClosed, hEarly, ?_, ?_⟩⟩
    · rintro pingMs ⟨⟩
      exact le_refl _
    · rw [exists_ends_append, hEnds, ← h.closed, or_iff_left hEarly]
    · intro other hOther hPinged
      refine .inr ⟨_, rfl, ?_⟩
      rcases List.mem_append.mp hOther with hOther | hOther
      · exact hNow ▸ Nat.le_add_right_of_le (h.le_now hOther hPinged)
      · rw [List.mem_singleton.mp hOther]
    · have hHeard : e.state = state := by rw [he]; rfl
      rw [hHeard]
      exact (hSilence livenessPingAfterSilenceMs _ (by decide)).mp hPing.1
    · intro earlier hEarlier hPinged
      rcases h.pinged earlier hEarlier hPinged with hHeard | ⟨pingMs, hLast, hLe⟩
      · exact (Nat.add_le_add_right hHeard _).trans ((hSilence _ _ (by decide)).mp hPing.1)
      · rw [hLast] at hPing
        exact (Nat.add_le_add_right hLe _).trans ((hSilence _ _ (by decide)).mp hPing.2)
  · rename_i hPing
    rw [if_neg hPing]
    exact ⟨h.quiet e he hInbound (by simp [Pings, hReply]) rfl rfl
      (by simp [hEnds, hEarly]), by simp [hReply, hEarly], by simp [Pings, hReply]⟩

theorem Tracks.step (h : Tracks startMs past state) (call : TimedCall) :
    Tracks startMs (past ++ [event TimedTracker.step state call])
      (TimedTracker.step state call).2 ∧ Answered past (event TimedTracker.step state call) := by
  obtain ⟨-, call⟩ := call
  cases call with
  | heard =>
    refine ⟨h.inbound _ rfl (.inl rfl) ?_ ?_ rfl rfl rfl, ?_, ?_⟩ <;>
      simp [Pings, Ends, Due, event, TimedTracker.step]
  | poll next => exact h.poll _ rfl
  | receivePong challenge =>
    unfold event TimedTracker.step LivenessTracker.receivePong
    dsimp only
    split
    · refine ⟨h.quiet _ rfl ?_ ?_ rfl rfl ?_, ?_, ?_⟩ <;>
        simp [Inbound, Pings, Ends, Due]
    · refine ⟨h.inbound _ rfl (.inr rfl) ?_ ?_ rfl rfl rfl, ?_, ?_⟩ <;>
        simp [Pings, Ends, Due]
  | close =>
    refine ⟨h.quiet _ rfl ?_ ?_ rfl rfl ?_, ?_, ?_⟩ <;>
      simp [Inbound, Pings, Ends, Due, event, TimedTracker.step, LivenessTracker.close]

end Steps

/-- Over every run on a clock that does not go back, and at every call of it:
the silence is counted from the last inbound message recorded; the call reports
the session closed exactly when it is the first poll at which the silence has
reached the limit and the owner has not closed the session; and a ping is sent
only before that, five seconds after the last inbound message and after every
earlier ping. -/
theorem liveness_timing (startMs : Nat) (calls : List TimedCall)
    (before after : List LivenessEvent) (e : LivenessEvent)
    (hSplit : history step (.new startMs) calls = before ++ e :: after) :
    LastInbound startMs before e.state.tracker.lastHeardMs ∧
    (e.reply = .polled .closeSession ↔
      e.Due ∧ ∀ earlier ∈ before, ¬earlier.Due ∧ earlier.call.call ≠ .close) ∧
    (e.Pings → (∀ earlier ∈ before, ¬earlier.Due ∧ earlier.call.call ≠ .close) ∧ ¬e.Due ∧
      e.state.tracker.lastHeardMs + 5000 ≤ e.nowMs ∧
      ∀ earlier ∈ before, earlier.Pings → earlier.nowMs + 5000 ≤ e.nowMs) := by
  obtain ⟨first, -, -, rfl, he, -⟩ := history_split _ hSplit
  have hTracks : Tracks startMs (history step (.new startMs) first)
      (final step (.new startMs) first) :=
    history_invariant _ (P := Tracks startMs)
      ⟨.start, le_refl _, by simp [new, LivenessTracker.new],
        by simp [new, LivenessTracker.new], by simp⟩
      (fun _ _ call h => (h.step call).1) first
  have hAnswered := (hTracks.step e.call).2
  have hState : final step (.new startMs) first = e.state := by rw [he]; rfl
  rw [← he] at hAnswered
  obtain ⟨hCloses, hPings⟩ := hAnswered
  simp only [LivenessEvent.Ends, not_or] at hCloses hPings
  exact ⟨hState ▸ hTracks.heard, hCloses, hPings⟩

/-- A session its owner closed is not reported closed, however long the silence. -/
theorem closed_by_owner_unreported : (history step (.new 0)
      [⟨0, .close⟩, ⟨30000, .poll ⟨List.replicate 32 0, rfl⟩⟩]).map (·.reply) =
      [.done, .polled .alreadyClosed] :=
  rfl

/-- A message, a ping and its pong, another ping, and half a minute of silence. -/
theorem liveness_timing_silence :
    let challenge : PingChallenge := ⟨List.replicate 32 0, rfl⟩
    let calls : List TimedCall := [⟨1000, .heard⟩, ⟨5000, .poll challenge⟩,
      ⟨100, .receivePong challenge⟩, ⟨5000, .poll challenge⟩]
    let e := event step (final step (.new 0) calls)
      ⟨25000, .poll challenge⟩
    LastInbound 0 (history step (.new 0) calls) 6100 ∧
      (history step (.new 0) calls).map (·.reply) = [.done,
        .polled (.sendPing challenge), .pong .accepted, .polled (.sendPing challenge)] ∧
      e.reply = .polled .closeSession ∧ LivenessEvent.Due e := by
  intro challenge calls e
  obtain ⟨hHeard, hCloses, -⟩ := liveness_timing 0 (calls ++ [⟨25000, .poll challenge⟩])
    (history step (.new 0) calls) [] e (history_append ..)
  have hClosed : e.reply = .polled .closeSession := by decide +kernel
  have hLast : e.state.tracker.lastHeardMs = 6100 := by decide +kernel
  exact ⟨hLast ▸ hHeard, by decide +kernel, hClosed, (hCloses.mp hClosed).1⟩

end RefineId.Rapp
