import RefineId.Rapp.PairRecordRoundTrip
import RefineId.Semantics.Run

/-! One pairing record through its expiry checks and renamings, under a store
that may refuse any of them and a clock that may be set back. -/
namespace RefineId.Rapp.PairRecord

open Data Semantics

inductive RecordCall where
  | sweep (nowMs : UInt64) (sessionEstablished : Bool)
  | recordPeerDisplayName (name : DisplayName)

abbrev RecordReply (ε : Type) := Except (RecordStoreError ε) (SweepOutcome ⊕ Bool)

variable (record : PairRecord)

def RecordCall.apply {ε : Type} (store : Bytes → Except ε Unit) :
    RecordCall → RecordReply ε × PairRecord
  | .sweep nowMs sessionEstablished =>
    Prod.map (Except.map .inl) id (record.sweep nowMs sessionEstablished store)
  | .recordPeerDisplayName name =>
    Prod.map (Except.map .inr) id (record.recordPeerDisplayName name store)

/-- What a call hands to its store, as a store that refuses it tells. -/
def RecordCall.offered (call : RecordCall) : Option Bytes :=
  match (call.apply record Except.error).1 with
  | .error (.store bytes) => some bytes
  | _ => none

/-- The record in memory and what the store took last. -/
structure Holding where
  record : PairRecord
  stored : Option Bytes

abbrev StoreCall (ε : Type) := RecordCall × (Bytes → Except ε Unit)

def Holding.step {ε : Type} (holding : Holding) (call : StoreCall ε) : RecordReply ε × Holding :=
  let (reply, record) := call.1.apply holding.record call.2
  let taken := (call.1.offered holding.record).filter fun bytes => (call.2 bytes).isOk
  (reply, ⟨record, taken.or holding.stored⟩)

/-- The changes a call can ask its store to take. -/
inductive Change (record : PairRecord) : RecordCall → PairRecord → Prop where
  | renamed (name : DisplayName) :
      Change record (.recordPeerDisplayName name) { record with peerDisplayName := name }
  | recorded (nowMs : UInt64) : Change record (.sweep nowMs true)
      { record with lastSessionAtMs := some (laterSession record.lastSessionAtMs nowMs) }
  | expired (nowMs : UInt64) (hActive : record.forgottenAtMs = none)
      (hIdle : record.idleLimitReached nowMs) :
      Change record (.sweep nowMs false) { record with forgottenAtMs := some nowMs }

/-- A pairing later: its sessions are not forgotten. -/
structure Later (before after : PairRecord) : Prop where
  created : after.createdAtMs = before.createdAtMs
  session : ∀ atMs, before.lastSessionAtMs = some atMs →
    ∃ later, after.lastSessionAtMs = some later ∧ atMs ≤ later

/-- The record a sweep asks its store to take. -/
def swept (nowMs : UInt64) (sessionEstablished : Bool) : PairRecord :=
  let plan := record.planSweep nowMs sessionEstablished
  { record with lastSessionAtMs := plan.lastSessionAtMs, forgottenAtMs := plan.forgottenAtMs }

variable {ε : Type}

open Holding

section Step
variable {record next : PairRecord} {call : RecordCall}

theorem planSweep_cases (record : PairRecord) (nowMs : UInt64) (sessionEstablished : Bool) :
    (record.planSweep nowMs sessionEstablished).outcome = .kept ∨
      (record.planSweep nowMs sessionEstablished).outcome ≠ .kept ∧
        Change record (.sweep nowMs sessionEstablished) (record.swept nowMs sessionEstablished) := by
  unfold swept planSweep
  split_ifs with hInactive hSession hIdle
  · exact .inl rfl
  · subst hSession
    exact .inr ⟨by simp, .recorded nowMs⟩
  · obtain rfl := Bool.eq_false_of_not_eq_true hSession
    simp only [Bool.or_eq_true, not_or, Option.not_isSome_iff_eq_none] at hInactive
    exact .inr ⟨by simp, .expired nowMs hInactive.2 hIdle⟩
  · exact .inl rfl

open RecordCall

/-- A call keeps the record without asking, or hands its store the record it
leaves if that is taken. -/
theorem apply_cases (record : PairRecord) (call : RecordCall) :
    (∃ reply, ∀ (ε : Type) (store : Bytes → Except ε Unit),
      call.apply record store = (.ok reply, record)) ∨
    ∃ bytes reply next, Change record call next ∧ next.encode = .ok bytes ∧
      ∀ (ε : Type) (store : Bytes → Except ε Unit), call.apply record store =
        match store bytes with
        | .error error => (.error (.store error), record)
        | .ok () => (.ok reply, next) := by
  cases call with
  | sweep nowMs sessionEstablished =>
    rcases planSweep_cases record nowMs sessionEstablished with hKept | ⟨hAsks, hChange⟩
    · refine .inl ⟨.inl .kept, fun ε store => ?_⟩
      simp only [apply, sweep, hKept, if_true]
      rfl
    obtain ⟨bytes, hEncoded, -⟩ := encode_total (record.swept nowMs sessionEstablished)
    refine .inr ⟨bytes, .inl (record.planSweep nowMs sessionEstablished).outcome, _, hChange,
      hEncoded, fun ε store => ?_⟩
    change record.encodeWithTimes _ _ = .ok bytes at hEncoded
    simp only [swept] at hEncoded
    simp only [apply, sweep, if_neg hAsks, hEncoded]
    cases store bytes <;> rfl
  | recordPeerDisplayName name =>
    by_cases hSame : record.peerDisplayName = name
    · refine .inl ⟨.inr false, fun ε store => ?_⟩
      simp only [apply, recordPeerDisplayName, if_pos hSame]
      rfl
    · obtain ⟨bytes, hEncoded, -⟩ := encode_total { record with peerDisplayName := name }
      refine .inr ⟨bytes, .inr true, _, .renamed name, hEncoded, fun ε store => ?_⟩
      simp only [apply, recordPeerDisplayName, if_neg hSame, hEncoded]
      cases store bytes <;> rfl

/-- A step changes nothing, or the store took the record it leaves. -/
theorem step_cases (holding : Holding) (call : StoreCall ε) : (holding.step call).2 = holding ∨
    ∃ bytes next, Change holding.record call.1 next ∧ next.encode = .ok bytes ∧
      (holding.step call).2 = ⟨next, some bytes⟩ := by
  rcases apply_cases holding.record call.1 with
    ⟨reply, hApply⟩ | ⟨bytes, reply, next, hChange, hEncoded, hApply⟩
  · exact .inl (by simp [step, offered, hApply])
  cases hStore : call.2 bytes with
  | error error =>
    exact .inl (by simp [step, offered, hApply, hStore, Option.filter, Except.isOk, Except.toBool])
  | ok taken =>
    exact .inr ⟨bytes, next, hChange, hEncoded, by
      simp [step, offered, hApply, hStore, Except.isOk, Except.toBool]⟩

theorem Later.of_eq (hCreated : next.createdAtMs = record.createdAtMs)
    (hSession : next.lastSessionAtMs = record.lastSessionAtMs) : Later record next :=
  ⟨hCreated, fun atMs hAt => ⟨atMs, hSession.trans hAt, UInt64.le_refl _⟩⟩

theorem Change.later (h : Change record call next) : Later record next := by
  cases h with
  | renamed name => exact .of_eq rfl rfl
  | recorded nowMs =>
    refine ⟨rfl, fun atMs hAt => ⟨_, rfl, ?_⟩⟩
    simp only [hAt, laterSession]
    split
    · exact UInt64.le_refl _
    · exact UInt64.le_of_lt (UInt64.not_le.mp ‹_›)
  | expired nowMs hActive hIdle => exact .of_eq rfl rfl

theorem idleLimitReached_le {nowMs} (h : record.idleLimitReached nowMs) :
    record.createdAtMs.toNat + pairingIdleExpiryMs.toNat ≤ nowMs.toNat ∧
      ∀ atMs, record.lastSessionAtMs = some atMs →
        atMs.toNat + pairingIdleExpiryMs.toNat ≤ nowMs.toNat := by
  have hLong : pairingIdleExpiryMs.toNat = 2592000000 := by decide
  unfold idleLimitReached at h
  cases hLast : record.lastSessionAtMs with
  | none =>
    simp only [hLast, decide_eq_true_eq] at h
    exact ⟨by omega, by simp⟩
  | some last =>
    simp only [hLast, decide_eq_true_eq, UInt64.lt_iff_toNat_lt] at h
    simp only [Option.some.injEq, forall_eq']
    split at h <;> omega

end Step

section Run
abbrev RecordEvent (ε : Type) := Event Holding (StoreCall ε) (RecordReply ε)

/-- What one call may do to the pairing, given the calls before it. -/
structure Spares (past : List (RecordEvent ε)) (e : RecordEvent ε) (after : PairRecord) : Prop where
  later : Later e.state.record after
  session : ∀ nowMs, e.call.1 = .sweep nowMs true →
    after.forgottenAtMs = e.state.record.forgottenAtMs
  once : ∀ atMs, e.state.record.forgottenAtMs = some atMs → after.forgottenAtMs = some atMs
  idle : e.state.record.forgottenAtMs = none → ∀ atMs, after.forgottenAtMs = some atMs →
    e.call.1 = .sweep atMs false ∧
      e.state.record.createdAtMs.toNat + pairingIdleExpiryMs.toNat ≤ atMs.toNat ∧
      ∀ earlier ∈ past ++ [e], ∀ session, earlier.state.record.lastSessionAtMs = some session →
        session.toNat + pairingIdleExpiryMs.toNat ≤ atMs.toNat

/-- What is in memory after any past. -/
structure Held (start : PairRecord) (past : List (RecordEvent ε)) (holding : Holding) : Prop where
  stored : (holding.stored = none ∧ holding.record = start) ∨
    ∃ bytes, holding.stored = some bytes ∧ holding.record.encode = .ok bytes
  later : ∀ e ∈ past, Later e.state.record holding.record

variable {start : PairRecord} {past : List (RecordEvent ε)} {holding : Holding}

theorem Spares.of_eq {e after} (hLater : Later e.state.record after)
    (hSame : after.forgottenAtMs = e.state.record.forgottenAtMs) : Spares past e after := by
  refine ⟨hLater, fun _ _ => hSame, fun _ hAt => hSame.trans hAt, fun hNone atMs hAt => ?_⟩
  rw [hSame, hNone] at hAt
  cases hAt

theorem Held.spares (h : Held start past holding) (call : StoreCall ε) :
    Spares past (event step holding call) (holding.step call).2.record := by
  rcases step_cases holding call with hSame | ⟨bytes, next, hChange, -, hStep⟩
  · rw [hSame]
    exact .of_eq (.of_eq rfl rfl) rfl
  rw [hStep]
  have hLater := hChange.later
  obtain ⟨call, store⟩ := call
  cases hChange with
  | renamed name | recorded nowMs => exact .of_eq hLater rfl
  | expired nowMs hActive hIdle =>
    obtain ⟨hCreated, hLast⟩ := idleLimitReached_le hIdle
    refine ⟨hLater, (fun _ hCall => by cases hCall), fun atMs hAt => ?_, fun _ atMs hAt => ?_⟩
    · cases hActive.symm.trans hAt
    cases hAt
    refine ⟨rfl, hCreated, forall_mem_snoc (fun earlier hEarlier session hSession => ?_) hLast⟩
    obtain ⟨last, hThis, hLe⟩ := (h.later earlier hEarlier).session session hSession
    exact (Nat.add_le_add_right (UInt64.le_iff_toNat_le.mp hLe) _).trans (hLast last hThis)

theorem Held.step (h : Held start past holding) (call : StoreCall ε) :
    Held start (past ++ [event step holding call]) (holding.step call).2 where
  stored := by
    rcases step_cases holding call with hSame | ⟨bytes, next, -, hEncoded, hStep⟩
    · rw [hSame]
      exact h.stored
    · rw [hStep]
      exact .inr ⟨bytes, rfl, hEncoded⟩
  later := by
    have hThis := (h.spares call).later
    refine forall_mem_snoc (fun earlier hEarlier => ?_) hThis
    have hBefore := h.later earlier hEarlier
    refine ⟨hThis.created.trans hBefore.created, fun atMs hAt => ?_⟩
    obtain ⟨last, hLast, hLe⟩ := hBefore.session atMs hAt
    obtain ⟨later, hLater, hMore⟩ := hThis.session last hLast
    exact ⟨later, hLater, UInt64.le_trans hLe hMore⟩

theorem held (start : PairRecord) (calls : List (StoreCall ε)) :
    Held start (history step ⟨start, none⟩ calls)
      (final step ⟨start, none⟩ calls) :=
  history_invariant step ⟨.inl ⟨rfl, rfl⟩, by simp⟩ (fun _ _ call h => h.step call) calls

/-- After every run the record in memory is the one the store took last, which
is what its bytes decode to unless they are longer than a frame, and every call
of the run spares the pairing. -/
theorem pairing_expiry_store_first (start : PairRecord) (calls : List (StoreCall ε)) :
    (((final step ⟨start, none⟩ calls).stored = none ∧
        (final step ⟨start, none⟩ calls).record = start) ∨
      ∃ bytes, (final step ⟨start, none⟩ calls).stored = some bytes ∧
        (bytes.length ≤ maxFramePlaintext →
          decode bytes = .ok (final step ⟨start, none⟩ calls).record)) ∧
    ∀ before e after, history step ⟨start, none⟩ calls = before ++ e :: after →
      Spares before e (e.state.step e.call).2.record := by
  constructor
  · rcases (held start calls).stored with hStart | ⟨bytes, hStored, hEncoded⟩
    · exact .inl hStart
    · exact .inr ⟨bytes, hStored, fun hShort => decode_eq_ok.mpr ⟨hEncoded, hShort⟩⟩
  · intro before e after hSplit
    obtain ⟨first, -, -, rfl, he, -⟩ := history_split step hSplit
    have hSpares := (held start first).spares e.call
    rwa [← he, show final step ⟨start, none⟩ first = e.state by rw [he]; rfl] at hSpares

/-- After a session the store takes the bytes of a record that lists a profile
2800 times, and they decode to no record. -/
theorem swept_record_unreadable : ∃ (start : PairRecord) (bytes : Bytes),
      (final step ⟨start, none⟩
        [(.sweep 0 true, fun _ => (.ok () : Except Unit Unit))]).stored = some bytes ∧
      decode bytes = .error .invalidInput := by
  obtain ⟨start, -, hProfiles, hConfirmed, hActive⟩ := new_crowded
  obtain ⟨bytes, hEncoded, hUnreadable⟩ := @decode_crowded (start.swept 0 true) hProfiles
  refine ⟨start, bytes, ?_, hUnreadable⟩
  clear hProfiles hUnreadable
  change start.encodeWithTimes _ _ = .ok bytes at hEncoded
  simp only [swept, planSweep, hConfirmed, hActive] at hEncoded
  simp_all [final, step, RecordCall.offered, RecordCall.apply, sweep, planSweep,
    Except.map, Except.isOk, Except.toBool]

end Run

end RefineId.Rapp.PairRecord
