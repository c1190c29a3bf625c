import Mathlib.Data.List.Nodup
import RefineId.Data.Words
import RefineId.Semantics.Run

/-! The nonces of recently routed sessions (`crates/rapp/src/routing.rs`). -/
namespace RefineId.Rapp

open Data Semantics List

def routingNonceSize : Nat := 16

def routingReplayWindow : Nat := 256

abbrev RoutingNonce := FixedBytes routingNonceSize

/-- The remembered nonces, the oldest first. -/
structure RoutingReplayCache where
  seen : List RoutingNonce

namespace RoutingReplayCache

def empty : RoutingReplayCache := ⟨[]⟩

/-- Record a nonce and say whether it was new. -/
def admitNonce (cache : RoutingReplayCache) (nonce : RoutingNonce) : Bool × RoutingReplayCache :=
  if nonce ∈ cache.seen then (false, cache)
  else if cache.seen.length = routingReplayWindow then (true, ⟨cache.seen.tail ++ [nonce]⟩)
  else (true, ⟨cache.seen ++ [nonce]⟩)

def admitted (past : List (Event RoutingReplayCache RoutingNonce Bool)) : List RoutingNonce :=
  (past.filter (·.reply)).map (·.call)

/-- What is remembered is the end of what was admitted, as far as the window
reaches, and has no nonce twice. -/
structure Remembers (nonces : List RoutingNonce) (cache : RoutingReplayCache) : Prop where
  recent : cache.seen <:+ nonces
  length : cache.seen.length = min routingReplayWindow nonces.length
  distinct : cache.seen.Nodup

variable {cache : RoutingReplayCache} {nonce : RoutingNonce}

theorem admit_refused : (cache.admitNonce nonce).1 = false ↔ nonce ∈ cache.seen := by
  rw [admitNonce]
  split
  · simpa
  · split <;> simpa

theorem admit_of_mem (h : nonce ∈ cache.seen) : cache.admitNonce nonce = (false, cache) :=
  if_pos h

theorem Remembers.admitNonce {nonces} (h : Remembers nonces cache) (hNew : nonce ∉ cache.seen) :
    (cache.admitNonce nonce).1 = true ∧ Remembers (nonces ++ [nonce]) (cache.admitNonce nonce).2 := by
  have hPushed (kept : List RoutingNonce) (hKept : kept <:+ cache.seen) :
      kept ++ [nonce] <:+ nonces ++ [nonce] ∧ (kept ++ [nonce]).Nodup := by
    obtain ⟨older, hOlder⟩ := hKept.trans h.recent
    refine ⟨⟨older, by rw [← hOlder, append_assoc]⟩, ?_⟩
    rw [← concat_eq_append, nodup_concat]
    exact ⟨fun hMem => hNew (hKept.mem hMem), h.distinct.sublist hKept.sublist⟩
  have hLength := h.length
  rw [RoutingReplayCache.admitNonce, if_neg hNew]
  split
  · rename_i hFull
    obtain ⟨hRecent, hDistinct⟩ := hPushed _ (tail_suffix _)
    refine ⟨rfl, hRecent, ?_, hDistinct⟩
    simp only [length_append, length_tail, length_singleton, routingReplayWindow] at hFull hLength ⊢
    omega
  · rename_i hRoom
    obtain ⟨hRecent, hDistinct⟩ := hPushed _ (suffix_refl _)
    refine ⟨rfl, hRecent, ?_, hDistinct⟩
    simp only [length_append, length_singleton, routingReplayWindow] at hRoom hLength ⊢
    omega

variable (nonces : List RoutingNonce)

theorem history_remembers :
    Remembers (admitted (history admitNonce empty nonces)) (final admitNonce empty nonces) := by
  refine history_invariant admitNonce (P := fun past cache => Remembers (admitted past) cache) ?_ ?_ nonces
  · exact ⟨suffix_refl _, rfl, nodup_nil⟩
  intro past cache nonce h
  by_cases hSeen : nonce ∈ cache.seen
  · simpa [admitted, event, admit_of_mem hSeen] using h
  · obtain ⟨hReply, hKept⟩ := h.admitNonce hSeen
    simpa [admitted, event, hReply] using hKept

/-- After every sequence of admissions, the nonces remembered are the last 256
admitted, or all of them, each once; exactly these are refused, and a refusal
changes nothing. -/
theorem replay_window :
    ∃ recent, recent <:+ admitted (history admitNonce empty nonces) ∧
      recent.length = min 256 (admitted (history admitNonce empty nonces)).length ∧ recent.Nodup ∧
      (final admitNonce empty nonces).seen = recent ∧
      ∀ nonce, (((final admitNonce empty nonces).admitNonce nonce).1 = false ↔ nonce ∈ recent) ∧
        (((final admitNonce empty nonces).admitNonce nonce).1 = false →
          ((final admitNonce empty nonces).admitNonce nonce).2 = final admitNonce empty nonces) := by
  have h := history_remembers nonces
  refine ⟨_, h.recent, h.length, h.distinct, rfl, fun nonce => ⟨admit_refused, fun hRefused => ?_⟩⟩
  rw [admit_of_mem (admit_refused.mp hRefused)]

end RoutingReplayCache

end RefineId.Rapp
