import Mathlib.Algebra.BigOperators.Fin
import Mathlib.Algebra.Order.BigOperators.Group.Finset

/-!
# Counting threads by where they stand

A finite family of threads is summed up by weights: `tally w f` adds the weight of every
thread. Counting invariants of semaphores are linear equations between tallies, and one
thread's step changes each tally by the difference of its own weights.
-/

open scoped BigOperators

namespace ThreadTally

variable {ι β : Type*} [Fintype ι]

def tally (w : β → ℕ) (f : ι → β) : ℕ := ∑ i, w (f i)

theorem le_tally (w : β → ℕ) (f : ι → β) (i : ι) : w (f i) ≤ tally w f :=
  Finset.single_le_sum (f := fun j => w (f j)) (fun _ _ => Nat.zero_le _) (Finset.mem_univ i)

theorem tally_eq_zero_iff (w : β → ℕ) (f : ι → β) : tally w f = 0 ↔ ∀ i, w (f i) = 0 := by
  simp [tally]

theorem tally_add (v w : β → ℕ) (f : ι → β) :
    tally (fun b => v b + w b) f = tally v f + tally w f :=
  Finset.sum_add_distrib

variable [DecidableEq ι]

/-- Moving one thread changes a tally by that thread's own weights. -/
theorem tally_update (w : β → ℕ) (f : ι → β) (i : ι) (b : β) :
    tally w (Function.update f i b) + w (f i) = tally w f + w b := by
  have hnew : tally w (Function.update f i b) = w b + ∑ j ∈ Finset.univ.erase i, w (f j) := by
    unfold tally
    rw [← Finset.add_sum_erase _ _ (Finset.mem_univ i), Function.update_self]
    congr 1
    refine Finset.sum_congr rfl fun j hj => ?_
    rw [Function.update_of_ne (Finset.ne_of_mem_erase hj)]
  have hold : tally w f = w (f i) + ∑ j ∈ Finset.univ.erase i, w (f j) := by
    unfold tally
    rw [← Finset.add_sum_erase _ _ (Finset.mem_univ i)]
  omega

theorem add_le_tally (w : β → ℕ) (f : ι → β) {i j : ι} (hij : i ≠ j) :
    w (f i) + w (f j) ≤ tally w f := by
  unfold tally
  rw [← Finset.add_sum_erase _ _ (Finset.mem_univ i)]
  have hj : j ∈ Finset.univ.erase i := Finset.mem_erase.2 ⟨hij.symm, Finset.mem_univ j⟩
  exact Nat.add_le_add_left
    (Finset.single_le_sum (f := fun k => w (f k)) (fun _ _ => Nat.zero_le _) hj) _

end ThreadTally
