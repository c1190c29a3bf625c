import Mathlib.Data.List.Basic

/-! Programs that talk to a peer: each request waits for its reply, and the
program goes on as the reply says. A program is the tree of its requests, so
whatever holds of the tree holds against every peer. -/
namespace RefineId.Semantics

variable {Request Reply α β : Type}

inductive Dialogue (Request Reply α : Type) where
  | done (result : α)
  | ask (request : Request) (next : Reply → Dialogue Request Reply α)

namespace Dialogue

def bind (next : α → Dialogue Request Reply β) : Dialogue Request Reply α → Dialogue Request Reply β
  | done result => next result
  | ask request rest => ask request fun reply => bind next (rest reply)

instance : Monad (Dialogue Request Reply) where
  pure := done
  bind first next := bind next first

/-- The requests made while the replies last. The last one may be unanswered. -/
def sent : Dialogue Request Reply α → List Reply → List Request
  | done _, _ => []
  | ask request _, [] => [request]
  | ask request next, reply :: replies => request :: (next reply).sent replies

section Peer
variable {State : Type} (peer : State → Request → Reply × State)

/-- The program against a peer that answers from its own state. -/
def run : Dialogue Request Reply α → State → α × State
  | done result, state => (result, state)
  | ask request next, state => (next (peer state request).1).run (peer state request).2

theorem run_bind (first : Dialogue Request Reply α) (next : α → Dialogue Request Reply β)
    (state : State) :
    (first >>= next).run peer state =
      (next (first.run peer state).1).run peer (first.run peer state).2 := by
  induction first generalizing state with
  | done result => rfl
  | ask request rest ih => exact ih (peer state request).1 (peer state request).2

end Peer

section Failing
variable {ε : Type}

/-- Programs that may stop with an error. -/
abbrev Failing (ε Request Reply : Type) : Type → Type :=
  ExceptT ε (Dialogue Request Reply)

end Failing

/-- Every request the program can make, whatever the replies. -/
def Every (P : Request → Prop) : Dialogue Request Reply α → Prop
  | done _ => True
  | ask request next => P request ∧ ∀ reply, (next reply).Every P

variable {dialogue : Dialogue Request Reply α} {next : α → Dialogue Request Reply β}

section Every
variable {P : Request → Prop}

theorem every_sent (h : dialogue.Every P) (replies : List Reply) :
    ∀ request ∈ dialogue.sent replies, P request := by
  induction dialogue generalizing replies with
  | done result => simp [sent]
  | ask request next ih =>
    cases replies with
    | nil =>
      exact List.forall_mem_singleton.mpr h.1
    | cons reply replies =>
      exact List.forall_mem_cons.mpr ⟨h.1, ih reply (h.2 reply) replies⟩

/-- At most so many requests, all of them `P`, whatever the replies. -/
def Bounded (P : Request → Prop) : Dialogue Request Reply α → Nat → Prop
  | done _, _ => True
  | ask _ _, 0 => False
  | ask request next, bound + 1 => P request ∧ ∀ reply, (next reply).Bounded P bound

variable {bound more : Nat}

theorem Bounded.every (h : dialogue.Bounded P bound) : dialogue.Every P := by
  induction dialogue generalizing bound with
  | done result => trivial
  | ask request next ih =>
    cases bound with
    | zero => cases h
    | succ bound => exact ⟨h.1, fun reply => ih reply (h.2 reply)⟩

theorem Bounded.mono {Q} (h : dialogue.Bounded P bound)
    (hAll : ∀ request, P request → Q request) (hLe : bound ≤ more) : dialogue.Bounded Q more := by
  induction dialogue generalizing bound more with
  | done result => trivial
  | ask request next ih =>
    cases bound with
    | zero => cases h
    | succ bound =>
      obtain ⟨more, rfl⟩ := Nat.exists_eq_add_of_le' (Nat.le_of_add_left_le hLe)
      exact ⟨hAll request h.1, fun reply => ih reply (h.2 reply) (Nat.le_of_succ_le_succ hLe)⟩

theorem Bounded.bind (h : dialogue.Bounded P bound) (hNext : ∀ result, (next result).Bounded P more) :
    (dialogue >>= next).Bounded P (bound + more) := by
  induction dialogue generalizing bound with
  | done result => exact (hNext result).mono (fun _ => id) (Nat.le_add_left more bound)
  | ask request rest ih =>
    cases bound with
    | zero => cases h
    | succ bound =>
      rw [Nat.succ_add]
      exact ⟨h.1, fun reply => ih reply (h.2 reply)⟩

end Every

/-- The result of a program whose replies come from a list, with the replies
left over, if they last. -/
def follow : Dialogue Request Reply α → List Reply → Option (α × List Reply)
  | done result, replies => some (result, replies)
  | ask _ _, [] => none
  | ask _ next, reply :: replies => (next reply).follow replies

theorem follow_bind {replies rest result} (h : dialogue.follow replies = some (result, rest)) :
    (dialogue >>= next).follow replies = (next result).follow rest := by
  induction dialogue generalizing replies with
  | done other =>
    cases h
    rfl
  | ask request continue_ ih =>
    cases replies with
    | nil => cases h
    | cons reply replies => exact ih reply h

end Dialogue

end RefineId.Semantics
