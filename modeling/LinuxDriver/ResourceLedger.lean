import LinuxDriver.Interleaving
import Mathlib.Data.List.Nodup
import Mathlib.Data.List.Perm.Basic
import Mathlib.Logic.Function.Basic
import Mathlib.Tactic.SplitIfs

/-!
# Ledgers of registered resources

A ledger says who holds each resource of a shared registry. The code of one holder acts on it
by events: an acquisition that the registry granted, a release, an access. A release takes the
entry away from whoever has it, so what a release may be applied to is a matter of being
`Proper`.
-/

namespace ResourceLedger

open Interleaving

inductive Event (ρ : Type*)
  | acquire (r : ρ)
  | release (r : ρ)
  | access (r : ρ)
  deriving DecidableEq

abbrev Ledger (ρ ο : Type*) := ρ → Option ο

variable {ρ ο : Type*} [DecidableEq ρ]

namespace Event

def perform (self : ο) (l : Ledger ρ ο) : Event ρ → Ledger ρ ο
  | .acquire r => Function.update l r (some self)
  | .release r => Function.update l r none
  | .access _ => l

/-- The registry hands out nothing that is taken. -/
def granted (l : Ledger ρ ο) : Event ρ → Bool
  | .acquire r => (l r).isNone
  | _ => true

/-- Only free entries are acquired, only own entries are released or accessed. -/
def Proper (self : ο) (l : Ledger ρ ο) : Event ρ → Prop
  | .acquire r => l r = none
  | .release r => l r = some self
  | .access r => l r = some self

end Event

def perform (self : ο) (l : Ledger ρ ο) (es : List (Event ρ)) : Ledger ρ ο :=
  es.foldl (Event.perform self) l

def granted (self : ο) : Ledger ρ ο → List (Event ρ) → Bool
  | _, [] => true
  | l, e :: es => e.granted l && granted self (e.perform self l) es

def Proper (self : ο) : Ledger ρ ο → List (Event ρ) → Prop
  | _, [] => True
  | l, e :: es => e.Proper self l ∧ Proper self (e.perform self l) es

def Holds (self : ο) (l : Ledger ρ ο) (rs : List ρ) : Prop := ∀ r, l r = some self ↔ r ∈ rs

def acquires (rs : List ρ) : List (Event ρ) := rs.map Event.acquire

def releases (rs : List ρ) : List (Event ρ) := rs.map Event.release

variable {self : ο} {l : Ledger ρ ο} {r : ρ} {rs : List ρ} {es es' : List (Event ρ)}

omit [DecidableEq ρ] in
theorem acquires_append (rs rs' : List ρ) :
    acquires (rs ++ rs') = acquires rs ++ acquires rs' := List.map_append

theorem perform_append : perform self l (es ++ es') = perform self (perform self l es) es' :=
  List.foldl_append

theorem granted_append : granted self l (es ++ es') =
    (granted self l es && granted self (perform self l es) es') := by
  induction es generalizing l with
  | nil => rfl
  | cons e es ih => simp only [List.cons_append, granted, ih, Bool.and_assoc]; rfl

theorem proper_append : Proper self l (es ++ es') ↔
    Proper self l es ∧ Proper self (perform self l es) es' := by
  induction es generalizing l with
  | nil => exact (and_iff_right trivial).symm
  | cons e es ih => simp only [List.cons_append, Proper, ih, and_assoc]; rfl

/-- Proper events leave the entries of everybody else alone. -/
theorem perform_of_proper {o : ο} (hes : Proper self l es) (ho : o ≠ self)
    (hr : l r = some o) : perform self l es r = some o := by
  induction es generalizing l with
  | nil => exact hr
  | cons e es ih =>
      refine ih hes.2 ?_
      have he := hes.1
      cases e with
      | acquire r' =>
          have hne : r ≠ r' := fun h => by
            rw [Event.Proper, ← h, hr] at he
            contradiction
          rw [Event.perform, Function.update_of_ne hne, hr]
      | release r' =>
          have hne : r ≠ r' := fun h => by
            rw [Event.Proper, ← h, hr] at he
            exact ho (Option.some.inj he)
          rw [Event.perform, Function.update_of_ne hne, hr]
      | access r' => exact hr

/-! ## Acquiring and releasing a list of resources -/

theorem granted_acquires (h : granted self l (acquires rs) = true) :
    rs.Nodup ∧ ∀ r ∈ rs, l r = none := by
  induction rs generalizing l with
  | nil => exact ⟨List.nodup_nil, by simp⟩
  | cons r rs ih =>
      simp only [acquires, List.map_cons, granted, Event.granted, Event.perform,
        Bool.and_eq_true, Option.isNone_iff_eq_none] at h
      obtain ⟨hfree, hrest⟩ := h
      obtain ⟨hnodup, hrs⟩ := ih hrest
      have hr : r ∉ rs := fun hmem => by simpa using hrs r hmem
      refine ⟨List.nodup_cons.2 ⟨hr, hnodup⟩, fun r' hr' => ?_⟩
      rcases List.mem_cons.1 hr' with rfl | hmem
      · exact hfree
      · have hne : r' ≠ r := fun heq => hr (heq ▸ hmem)
        simpa [hne] using hrs r' hmem

theorem perform_acquires : perform self l (acquires rs) r =
    if r ∈ rs then some self else l r := by
  induction rs generalizing l with
  | nil => simp [perform, acquires]
  | cons r' rs ih =>
      change perform self (Function.update l r' (some self)) (acquires rs) r = _
      rw [ih]
      by_cases hr : r = r'
      · subst r'
        simp
      · simp [hr]

theorem perform_releases : perform self l (releases rs) r = if r ∈ rs then none else l r := by
  induction rs generalizing l with
  | nil => simp [perform, releases]
  | cons r' rs ih =>
      change perform self (Function.update l r' none) (releases rs) r = _
      rw [ih]
      by_cases hr : r = r'
      · subst r'
        simp
      · simp [hr]

theorem proper_acquires (h : granted self l (acquires rs) = true) :
    Proper self l (acquires rs) := by
  induction rs generalizing l with
  | nil => trivial
  | cons r rs ih =>
      simp only [acquires, List.map_cons, granted, Event.granted, Bool.and_eq_true,
        Option.isNone_iff_eq_none] at h
      exact ⟨h.1, ih h.2⟩

theorem proper_releases (hrs : ∀ r ∈ rs, l r = some self) (hnodup : rs.Nodup) :
    Proper self l (releases rs) := by
  induction rs generalizing l with
  | nil => trivial
  | cons r rs ih =>
      obtain ⟨hr, hnodup⟩ := List.nodup_cons.1 hnodup
      refine ⟨hrs r List.mem_cons_self, ih (fun r' hr' => ?_) hnodup⟩
      have hne : r' ≠ r := fun heq => hr (heq ▸ hr')
      rw [Event.perform, Function.update_of_ne hne]
      exact hrs r' (List.mem_cons_of_mem _ hr')

theorem holds_acquires (h : Holds self l []) : Holds self (perform self l (acquires rs)) rs := by
  intro r
  rw [perform_acquires]
  split_ifs with hr
  · exact iff_of_true rfl hr
  · exact iff_of_false (fun heq => by simpa using (h r).1 heq) hr

theorem holds_releases (h : Holds self l rs) : Holds self (perform self l (releases rs)) [] := by
  intro r
  rw [perform_releases]
  split_ifs with hr
  · simp
  · exact iff_of_false (fun heq => hr ((h r).1 heq)) (by simp)

/-- Unwinding in reverse order gives back the ledger from before. -/
theorem perform_unwind (h : granted self l (acquires rs) = true) :
    perform self l (acquires rs ++ releases rs.reverse) = l := by
  funext r
  rw [perform_append, perform_releases, perform_acquires]
  by_cases hr : r ∈ rs
  · simp [hr, (granted_acquires h).2 r hr]
  · simp [hr]

theorem proper_unwind (h : granted self l (acquires rs) = true) :
    Proper self l (acquires rs ++ releases rs.reverse) := by
  rw [proper_append]
  refine ⟨proper_acquires h, proper_releases (fun r hr => ?_) ?_⟩
  · rw [perform_acquires, if_pos (List.mem_reverse.1 hr)]
  · exact List.nodup_reverse.2 (granted_acquires h).1

end ResourceLedger
