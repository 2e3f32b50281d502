import Mathlib.Data.List.Basic
import Mathlib.Data.Nat.ModEq
import Mathlib.Logic.Relation

/-!
# Bounded first-in first-out queues and their ring representation

`Channel` is the abstract object: the sequence put in and the sequence taken out so far. A
step puts one item in when fewer than `cap` items wait, or takes the oldest waiting item.
`RingHolds` says that a ring of `cap` cells stores the items from position `r` on of a
history, item number `k` in cell `k % cap`.
-/

namespace BoundedQueue

variable {α : Type*}

structure Channel (α : Type*) where
  sent : List α
  received : List α

namespace Channel

def pending (c : Channel α) : List α := c.sent.drop c.received.length

inductive Step (cap : ℕ) : Channel α → Channel α → Prop
  | idle (c) : Step cap c c
  | put (c : Channel α) (v : α) (hroom : c.pending.length < cap) :
      Step cap c ⟨c.sent ++ [v], c.received⟩
  | get (c : Channel α) (v : α) (rest : List α) (hv : c.pending = v :: rest) :
      Step cap c ⟨c.sent, c.received ++ [v]⟩

/-- What went out is what went in first, and the waiting items fit. -/
structure Sound (cap : ℕ) (c : Channel α) : Prop where
  fifo : c.received <+: c.sent
  bounded : c.pending.length ≤ cap

theorem Sound.split {cap : ℕ} {c : Channel α} (h : c.Sound cap) :
    c.received ++ c.pending = c.sent := by
  obtain ⟨rest, hrest⟩ := h.fifo
  rw [pending, ← hrest, List.drop_left]

theorem Sound.step {cap : ℕ} {c d : Channel α} (h : c.Sound cap) (hs : Step cap c d) :
    d.Sound cap := by
  have hsplit := h.split
  cases hs with
  | idle => exact h
  | put v hroom =>
      have hpend : pending ⟨c.sent ++ [v], c.received⟩ = c.pending ++ [v] := by
        conv_lhs => rw [pending, ← hsplit]
        simp
      refine ⟨h.fifo.trans (List.prefix_append _ _), ?_⟩
      rw [hpend, List.length_append, List.length_singleton]
      omega
  | get v rest hv =>
      rw [hv] at hsplit
      have hpend : pending ⟨c.sent, c.received ++ [v]⟩ = rest := by
        simp [pending, ← hsplit]
      refine ⟨⟨rest, by simpa using hsplit⟩, ?_⟩
      have hb := h.bounded
      rw [hv, List.length_cons] at hb
      rw [hpend]
      omega

theorem Sound.run {cap : ℕ} {c d : Channel α} (h : c.Sound cap)
    (hs : Relation.ReflTransGen (Step cap) c d) : d.Sound cap := by
  induction hs with
  | refl => exact h
  | tail _ hstep ih => exact ih.step hstep

end Channel

def RingHolds (cap : ℕ) (buf : ℕ → α) (hist : List α) (r : ℕ) : Prop :=
  ∀ k, r ≤ k → ∀ hk : k < hist.length, buf (k % cap) = hist[k]

/-- Positions less than one revolution apart lie in different cells. -/
theorem mod_ne_of_lt_revolution {cap k n : ℕ} (hk : k < n) (hn : n < k + cap) :
    k % cap ≠ n % cap := by
  intro h
  have hm : (n - k) % cap = 0 := (Nat.modEq_iff_dvd' hk.le).1 h |> Nat.mod_eq_zero_of_dvd
  rw [Nat.mod_eq_of_lt (by omega)] at hm
  omega

/-- Writing the next position keeps every waiting item while fewer than `cap` wait. -/
theorem RingHolds.push {cap : ℕ} {buf : ℕ → α} {hist : List α} {r : ℕ}
    (h : RingHolds cap buf hist r) (hroom : hist.length < r + cap) (v : α) :
    RingHolds cap (Function.update buf (hist.length % cap) v) (hist ++ [v]) r := by
  intro k hr hk
  rw [List.length_append, List.length_singleton] at hk
  by_cases hlast : k = hist.length
  · subst k
    simp
  · have hlt : k < hist.length := by omega
    rw [Function.update_of_ne (mod_ne_of_lt_revolution hlt (by omega)),
      List.getElem_append_left hlt]
    exact h k hr hlt

theorem RingHolds.pop {cap : ℕ} {buf : ℕ → α} {hist : List α} {r : ℕ}
    (h : RingHolds cap buf hist r) : RingHolds cap buf hist (r + 1) :=
  fun k hr hk => h k (by omega) hk

theorem RingHolds.front {cap : ℕ} {buf : ℕ → α} {hist : List α} {r : ℕ}
    (h : RingHolds cap buf hist r) (hr : r < hist.length) : buf (r % cap) = hist[r] :=
  h r le_rfl hr

end BoundedQueue
