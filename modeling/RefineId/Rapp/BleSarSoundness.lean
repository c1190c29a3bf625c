import RefineId.Rapp.BleSar

/-! What a reassembler delivers, whatever fragments and timer checks it is
given. -/
namespace RefineId.Rapp

open Data Semantics List

abbrev BleSarEvent := Event BleSarReassembler BleSarCall (Except BleSarError (Option Bytes))

def BleSarEvent.fragment (e : BleSarEvent) : Option Bytes :=
  match e.call with
  | .receive fragment _ _ => some fragment
  | .checkTimer _ => none
  | .reset => none

/-- An accepted call that neither delivers nor drops anything. -/
def BleSarEvent.Quiet (e : BleSarEvent) : Prop :=
  e.reply = .ok none ∧ e.call ≠ .reset

structure Frame (fragments : List Bytes) (message : Bytes) : Prop where
  payloads : (fragments.map payloadOf).flatten = message
  sequences : fragments.map sequenceOf = range fragments.length
  totals : ∀ fragment ∈ fragments, totalOf fragment = message.length
  flags : fragments.map flagsOf = [flagSingle] ∨
    ∃ count, fragments.map flagsOf = flagFirst :: (replicate count flagCont ++ [flagLast])

/-- The fragments of a frame in progress, and what the machine holds of it. -/
structure Begun (fragments : List Bytes) (reassembler : BleSarReassembler) : Prop where
  payloads : (fragments.map payloadOf).flatten = reassembler.buffer
  sequences : fragments.map sequenceOf = range fragments.length
  next : reassembler.expectedSequence = fragments.length
  totals : ∀ fragment ∈ fragments, totalOf fragment = reassembler.expectedTotal
  flags : ∃ count, fragments.map flagsOf = flagFirst :: replicate count flagCont
  bounded : reassembler.buffer.length ≤ reassembler.expectedTotal

/-- The machine is new, or the calls made last began the frame it holds. -/
def Assembling (past : List BleSarEvent) (reassembler : BleSarReassembler) : Prop :=
  reassembler = .new ∨ ∃ earlier run, past = earlier ++ run ∧ (∀ e ∈ run, e.Quiet) ∧
    Begun (run.filterMap BleSarEvent.fragment) reassembler

variable {reassembler : BleSarReassembler}

namespace Begun
variable {fragments : List Bytes} {fragment : Bytes}

theorem busy (h : Begun fragments reassembler) : reassembler.isIdle = false := by
  obtain ⟨count, hFlags⟩ := h.flags
  have hLength := congrArg length hFlags
  rw [length_map, length_cons] at hLength
  exact BleSarReassembler.isIdle_eq_false (by rw [h.next, hLength]; exact Nat.succ_pos _)

theorem first {nowMs} (hFlags : flagsOf fragment = flagFirst) (hSequence : sequenceOf fragment = 0)
    (hTotal : (payloadOf fragment).length < totalOf fragment) :
    Begun [fragment] ⟨1, totalOf fragment, payloadOf fragment,
      some (saturatingAdd nowMs bleSarReassemblyTimeoutMs)⟩ where
  payloads := by simp
  sequences := by simp [hSequence]
  next := rfl
  totals := by simp
  flags := ⟨0, by simp [hFlags]⟩
  bounded := hTotal.le

section
variable (h : Begun fragments reassembler)
include h

/-- One more fragment takes the next place. -/
theorem sequences_append (hSequence : sequenceOf fragment = reassembler.expectedSequence) :
    (fragments ++ [fragment]).map sequenceOf = range (fragments ++ [fragment]).length := by
  rw [map_append, h.sequences, map_singleton, hSequence, h.next, length_append,
    length_singleton, range_succ]

theorem payloads_append : ((fragments ++ [fragment]).map payloadOf).flatten =
      reassembler.buffer ++ payloadOf fragment := by
  rw [map_append, flatten_append, h.payloads, map_singleton, flatten_singleton]

theorem totals_append (hTotal : totalOf fragment = reassembler.expectedTotal) :
    ∀ other ∈ fragments ++ [fragment], totalOf other = reassembler.expectedTotal :=
  forall_mem_snoc h.totals hTotal

theorem cont (hFlags : flagsOf fragment = flagCont)
    (hTotal : totalOf fragment = reassembler.expectedTotal)
    (hSequence : sequenceOf fragment = reassembler.expectedSequence)
    (hFits : (reassembler.buffer ++ payloadOf fragment).length ≤ reassembler.expectedTotal) :
    Begun (fragments ++ [fragment]) { reassembler with
        buffer := reassembler.buffer ++ payloadOf fragment
        expectedSequence := reassembler.expectedSequence + 1 } where
  payloads := h.payloads_append
  sequences := h.sequences_append hSequence
  next := by simp [h.next]
  totals := h.totals_append hTotal
  flags := by
    obtain ⟨count, hBefore⟩ := h.flags
    refine ⟨count + 1, ?_⟩
    rw [map_append, hBefore, map_singleton, hFlags, replicate_succ', cons_append]
  bounded := hFits

theorem last (hFlags : flagsOf fragment = flagLast)
    (hTotal : totalOf fragment = reassembler.expectedTotal)
    (hSequence : sequenceOf fragment = reassembler.expectedSequence)
    (hComplete : (reassembler.buffer ++ payloadOf fragment).length = reassembler.expectedTotal) :
    Frame (fragments ++ [fragment]) (reassembler.buffer ++ payloadOf fragment) where
  payloads := h.payloads_append
  sequences := h.sequences_append hSequence
  totals := hComplete ▸ h.totals_append hTotal
  flags := by
    obtain ⟨count, hBefore⟩ := h.flags
    refine .inr ⟨count, ?_⟩
    rw [map_append, hBefore, map_singleton, hFlags, cons_append]

end

end Begun

namespace BleSarReassembler

variable {call : BleSarCall}

theorem step_error {error} (h : (step reassembler call).1 = .error error) :
    (step reassembler call).2 = new := by
  cases call with
  | receive fragment capacity nowMs =>
    rcases receive_cases reassembler fragment capacity nowMs with
      ⟨_, hRefused⟩ | ⟨_, _, hAccepted, -, -⟩
    · simp only [step, hRefused]
    · simp only [step, hAccepted, reduceCtorEq] at h
  | checkTimer nowMs =>
    simp only [step, checkTimer] at h ⊢
    split at h
    case isTrue hExpired => rw [if_pos hExpired]; rfl
    case isFalse => cases h
  | reset => rfl

variable {past : List BleSarEvent}

/-- What one step does to the frame in progress. -/
theorem step_assembling (call : BleSarCall) (h : Assembling past reassembler) :
    Assembling (past ++ [event step reassembler call]) (step reassembler call).2 := by
  cases call with
  | receive fragment capacity nowMs =>
    rcases receive_cases reassembler fragment capacity nowMs with
      ⟨error, hRefused⟩ | ⟨delivered, after, hAccepted, -, hAccepts⟩
    · exact .inl (by simp only [step, hRefused])
    have hStep : step reassembler (.receive fragment capacity nowMs) = (.ok delivered, after) :=
      hAccepted
    rw [event, hStep]
    cases hAccepts with
    | single hIdle =>
      rcases h with hNew | ⟨_, _, _, _, hBegun⟩
      · exact .inl hNew
      · rw [hBegun.busy] at hIdle
        cases hIdle
    | first hIdle hFlags hSequence hMinimum hTotal =>
      rcases h with rfl | ⟨_, _, _, _, hBegun⟩
      · refine .inr ⟨past, _, rfl, ?_, Begun.first hFlags hSequence hTotal⟩
        rw [forall_mem_singleton]
        exact ⟨rfl, by simp⟩
      · rw [hBegun.busy] at hIdle
        cases hIdle
    | cont hBusy hFlags hTotal hSequence hMinimum hFits =>
      rcases h with rfl | ⟨earlier, run, rfl, hQuiet, hBegun⟩
      · cases hBusy
      refine .inr ⟨earlier, _, append_assoc _ _ _, ?_, ?_⟩
      · rw [forall_mem_append, forall_mem_singleton]
        exact ⟨hQuiet, rfl, by simp⟩
      · rw [filterMap_append_singleton]
        exact hBegun.cont hFlags hTotal hSequence hFits
    | last => exact .inl rfl
  | checkTimer nowMs =>
    cases hTimer : reassembler.timerExpired nowMs with
    | true => exact .inl (by simp only [step, checkTimer, hTimer, if_true, reset])
    | false =>
      have hStep : step reassembler (.checkTimer nowMs) = (.ok none, reassembler) := by
        simp [step, checkTimer, hTimer, Except.map]
      rw [event, hStep]
      rcases h with hNew | ⟨earlier, run, rfl, hQuiet, hBegun⟩
      · exact .inl hNew
      refine .inr ⟨earlier, _, append_assoc _ _ _, ?_, ?_⟩
      · rw [forall_mem_append, forall_mem_singleton]
        exact ⟨hQuiet, rfl, by simp⟩
      · rw [filterMap_append_singleton]
        simpa [BleSarEvent.fragment] using hBegun
  | reset => exact .inl rfl

theorem history_assembling (calls : List BleSarCall) :
    Assembling (history step new calls) (final step new calls) :=
  history_invariant step (.inl rfl) (fun _ _ call h => step_assembling call h) calls

theorem assembling_bounded (h : Assembling past reassembler) :
    reassembler.buffer.length ≤ reassembler.expectedTotal := by
  rcases h with rfl | ⟨_, _, _, _, hBegun⟩
  · exact Nat.le_refl _
  · exact hBegun.bounded

/-- A delivery ends the frame in progress or is a frame of its own. -/
theorem step_delivers {message} (h : Assembling past reassembler)
    (hDelivered : (step reassembler call).1 = .ok (some message)) :
    ∃ earlier run, past = earlier ++ run ∧ (∀ e ∈ run, e.Quiet) ∧
      Frame ((run ++ [event step reassembler call]).filterMap BleSarEvent.fragment) message := by
  cases call with
  | receive fragment capacity nowMs =>
    rcases receive_cases reassembler fragment capacity nowMs with
      ⟨error, hRefused⟩ | ⟨delivered, after, hAccepted, -, hAccepts⟩
    · simp only [step, hRefused, reduceCtorEq] at hDelivered
    simp only [step, hAccepted, Except.ok.injEq] at hDelivered
    subst hDelivered
    cases hAccepts with
    | single hIdle hFlags hSequence hTotal =>
      exact ⟨past, [], (append_nil _).symm, nofun, ⟨by simp [event, BleSarEvent.fragment],
          by simp [event, BleSarEvent.fragment, hSequence],
          by simp [event, BleSarEvent.fragment, hTotal],
          .inl (by simp [event, BleSarEvent.fragment, hFlags])⟩⟩
    | last hBusy hFlags hTotal hSequence hComplete =>
      rcases h with rfl | ⟨earlier, run, rfl, hQuiet, hBegun⟩
      · cases hBusy
      refine ⟨earlier, run, rfl, hQuiet, ?_⟩
      rw [filterMap_append_singleton]
      exact hBegun.last hFlags hTotal hSequence hComplete
  | checkTimer nowMs =>
    simp only [step, checkTimer] at hDelivered
    split at hDelivered <;> cases hDelivered
  | reset => cases hDelivered

/-- Whatever fragments, timer checks and resets a machine is given: it holds
no more than the total declared by the frame in progress; a delivered message
is the payloads of the accepted fragments since the frame began, in their
places and under one total; and an error leaves a new machine. -/
theorem reassembly_sound (calls : List BleSarCall) :
    (final step new calls).buffer.length ≤ (final step new calls).expectedTotal ∧
      Assembling (history step new calls) (final step new calls) ∧
      ∀ before e after, history step new calls = before ++ e :: after →
        (∀ message, e.reply = .ok (some message) →
          ∃ earlier run, before = earlier ++ run ∧ (∀ quiet ∈ run, quiet.Quiet) ∧
            Frame ((run ++ [e]).filterMap BleSarEvent.fragment) message) ∧
        ∀ error, e.reply = .error error →
          ∃ first later, calls = first ++ later ∧ before ++ [e] = history step new first ∧
            final step new first = new ∧ after = history step new later := by
  refine ⟨assembling_bounded (history_assembling calls), history_assembling calls, ?_⟩
  intro before e after hSplit
  obtain ⟨first, later, rfl, rfl, he, rfl⟩ := history_split step hSplit
  have hReply : e.reply = (step (final step new first) e.call).1 := by rw [he]; rfl
  constructor
  · intro message hMessage
    rw [he]
    exact step_delivers (history_assembling first) (hReply ▸ hMessage)
  intro error hError
  have hNew := step_error (hReply ▸ hError)
  have hState : e.state = final step new first := by rw [he]; rfl
  refine ⟨first ++ [e.call], later, by simp, ?_, ?_, by rw [hState, hNew]⟩
  · rw [history_append]
    nth_rewrite 1 [he]
    rfl
  · rw [final_append]
    exact hNew

/-- A frame of two fragments with a timer check between them. -/
theorem two_fragments_are_frame :
    let calls := [.receive (fragment 65 0 flagFirst (replicate 64 7)) 64 0, .checkTimer 10]
    let last := .receive (fragment 65 1 flagLast [7]) 64 20
    ∃ earlier run, history step new calls = earlier ++ run ∧ (∀ quiet ∈ run, BleSarEvent.Quiet quiet) ∧
      Frame ((run ++ [event step (final step new calls) last]).filterMap BleSarEvent.fragment)
        (replicate 65 7) := by
  intro calls last
  have hDelivered : (step (final step new calls) last).1 = .ok (some (replicate 65 7)) := by
    decide +kernel
  have hSplit : history step new (calls ++ [last]) =
      history step new calls ++ event step (final step new calls) last :: [] := by
    rw [history_append]
    rfl
  exact ((reassembly_sound (calls ++ [last])).2.2 _ _ _ hSplit).1 _ hDelivered

end BleSarReassembler

end RefineId.Rapp
