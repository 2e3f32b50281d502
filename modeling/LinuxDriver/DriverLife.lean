import LinuxDriver.ResourceLedger
import Mathlib.Data.List.Count

/-!
# The life of a loadable driver

A driver is an init and an exit routine over static data. It is loaded and unloaded any number
of times while others register and unregister in the same ledger, and its static data start out
fresh or are kept from the time before. A step is `Sound` when init ends with everything or
nothing held and exit returns everything once. Where both are sound in the driver's settled
states, every step of every run is: `meets_sound_iff` compares soundness with a condition on the
outcomes of the steps.
-/

namespace ResourceLedger

open Interleaving

/-- A run of an init routine: the static data it leaves, what it did and what it returns. -/
structure Attempt (γ ρ : Type*) where
  data : γ
  events : List (Event ρ)
  ret : ℤ

structure Driver (γ ω ρ : Type*) where
  fresh : γ
  init : γ → ω → Attempt γ ρ
  exit : γ → γ × List (Event ρ)
  holdings : γ → List ρ

structure World (γ ρ ο : Type*) where
  ledger : Ledger ρ ο
  data : γ
  loaded : Bool

inductive Action (ω ρ ο : Type*)
  | load (kept : Bool) (outcome : ω)
  | unload
  | register (other : ο) (r : ρ)
  | unregister (other : ο) (r : ρ)

variable {γ ω ρ ο : Type*}

def Attempt.emit (a : Attempt γ ρ) (e : Event ρ) : Attempt γ ρ :=
  { a with events := a.events ++ [e] }

/-- Negative, with everything that was acquired released in reverse order. -/
def Attempt.Aborted (a : Attempt γ ρ) : Prop :=
  a.ret < 0 ∧ ∃ rs, a.events = acquires rs ++ releases rs.reverse

/-- A condition on the outcomes of the loads and on there being any unload. -/
def Action.Allowed (P : ω → Prop) (Q : Prop) : Action ω ρ ο → Prop
  | .load _ o => P o
  | .unload => Q
  | _ => True

namespace Driver

variable (d : Driver γ ω ρ) (self : ο)

def start : World γ ρ ο := ⟨fun _ => none, d.fresh, false⟩

def attempt (w : World γ ρ ο) (kept : Bool) (o : ω) : Attempt γ ρ :=
  d.init (if kept then w.data else d.fresh) o

variable [DecidableEq ρ]

def step [DecidableEq ο] (w : World γ ρ ο) : Action ω ρ ο → Option (World γ ρ ο)
  | .load kept o =>
      let a := d.attempt w kept o
      if !w.loaded && granted self w.ledger a.events then
        some ⟨perform self w.ledger a.events, a.data, decide (0 ≤ a.ret)⟩
      else none
  | .unload =>
      if w.loaded then
        some ⟨perform self w.ledger (d.exit w.data).2, (d.exit w.data).1, false⟩
      else none
  | .register other r =>
      if other ≠ self ∧ w.ledger r = none then
        some { w with ledger := Function.update w.ledger r (some other) }
      else none
  | .unregister other r =>
      if other ≠ self ∧ w.ledger r = some other then
        some { w with ledger := Function.update w.ledger r none }
      else none

/-- Init returns 0 with everything held or a negative value with nothing held. -/
def SoundLoad (l : Ledger ρ ο) (a : Attempt γ ρ) : Prop :=
  Proper self l a.events ∧
    (a.ret = 0 ∧ Holds self (perform self l a.events) (d.holdings a.data) ∨
      a.ret < 0 ∧ Holds self (perform self l a.events) [])

/-- Exit releases everything exactly once and accesses only what it still holds. -/
def SoundUnload (l : Ledger ρ ο) (g : γ) : Prop :=
  Proper self l (d.exit g).2 ∧
    (∀ r ∈ d.holdings g, (d.exit g).2.count (.release r) = 1) ∧
    Holds self (perform self l (d.exit g).2) []

def Sound (w : World γ ρ ο) : Action ω ρ ο → Prop
  | .load kept o => d.SoundLoad self w.ledger (d.attempt w kept o)
  | .unload => d.SoundUnload self w.ledger w.data
  | _ => True

/-- Loading and unloading leave the entries of everybody else alone. -/
def Untouched (w : World γ ρ ο) : Action ω ρ ο → Prop
  | .load kept o => ∀ r other, other ≠ self → w.ledger r = some other →
      perform self w.ledger (d.attempt w kept o).events r = some other
  | .unload => ∀ r other, other ≠ self → w.ledger r = some other →
      perform self w.ledger (d.exit w.data).2 r = some other
  | _ => True

/-- A sound step that shows nobody else that the driver is there. -/
def Courteous (w : World γ ρ ο) (x : Action ω ρ ο) : Prop :=
  d.Sound self w x ∧ d.Untouched self w x

def Settled (Ready : γ → Prop) (w : World γ ρ ο) : Prop :=
  if w.loaded then Holds self w.ledger (d.holdings w.data) ∧ Ready w.data
  else Holds self w.ledger []

omit [DecidableEq ρ] in
theorem settled_start (Ready : γ → Prop) : d.Settled self Ready d.start := by
  intro r
  simp [start]

variable {d self} {l : Ledger ρ ο} {a : Attempt γ ρ} {rs : List ρ} {w w' : World γ ρ ο}

theorem soundLoad_of_aborted (ha : a.Aborted) (hl : Holds self l [])
    (hg : granted self l a.events = true) : d.SoundLoad self l a := by
  obtain ⟨hret, rs, hes⟩ := ha
  rw [hes, granted_append, Bool.and_eq_true] at hg
  refine ⟨?_, Or.inr ⟨hret, ?_⟩⟩
  · rw [hes]
    exact proper_unwind hg.1
  · rw [hes, perform_unwind hg.1]
    exact hl

/-- An init routine that returns 0 after acquiring is sound when it acquired its holdings. -/
theorem soundLoad_acquires_iff (hret : a.ret = 0) (hes : a.events = acquires rs)
    (hl : Holds self l []) (hg : granted self l a.events = true) :
    d.SoundLoad self l a ↔ ∀ r, r ∈ rs ↔ r ∈ d.holdings a.data := by
  rw [hes] at hg
  have hrs : Holds self (perform self l (acquires rs)) rs := holds_acquires hl
  constructor
  · rintro ⟨-, ⟨-, hall⟩ | ⟨hneg, -⟩⟩
    · rw [hes] at hall
      exact fun r => (hrs r).symm.trans (hall r)
    · omega
  · intro hall
    refine ⟨?_, Or.inl ⟨hret, fun r => ?_⟩⟩
    · rw [hes]
      exact proper_acquires hg
    · rw [hes]
      exact (hrs r).trans (hall r)

theorem not_soundLoad_of_unwound {r : ρ} (hret : a.ret = 0)
    (hes : a.events = acquires rs ++ releases rs.reverse) (hl : Holds self l [])
    (hg : granted self l a.events = true) (hr : r ∈ d.holdings a.data) :
    ¬ d.SoundLoad self l a := by
  rintro ⟨-, ⟨-, hall⟩ | ⟨hneg, -⟩⟩
  · rw [hes, granted_append, Bool.and_eq_true] at hg
    rw [hes, perform_unwind hg.1] at hall
    simpa using (hl r).1 ((hall r).2 hr)
  · omega

theorem proper_accesses {as : List ρ} (h : ∀ r ∈ as, l r = some self) :
    Proper self l (as.map Event.access) ∧ perform self l (as.map Event.access) = l := by
  induction as with
  | nil => exact ⟨trivial, rfl⟩
  | cons r as ih =>
      obtain ⟨hproper, hsame⟩ := ih fun r' hr' => h r' (List.mem_cons_of_mem _ hr')
      exact ⟨⟨h r List.mem_cons_self, hproper⟩, hsame⟩

theorem count_release (as rs : List ρ) (r : ρ) :
    (as.map Event.access ++ releases rs).count (.release r) = rs.count r := by
  have hinj : Function.Injective (Event.release : ρ → Event ρ) := fun _ _ => Event.release.inj
  have hnone : (as.map Event.access).count (Event.release r) = 0 :=
    List.count_eq_zero_of_not_mem (by simp)
  rw [List.count_append, hnone, Nat.zero_add, releases, List.count_map_of_injective _ _ hinj]

theorem soundUnload_of_perm {g : γ} (as rs : List ρ)
    (hexit : (d.exit g).2 = as.map Event.access ++ releases rs) (has : ∀ r ∈ as, r ∈ rs)
    (hperm : rs.Perm (d.holdings g)) (hnodup : rs.Nodup) (hl : Holds self l (d.holdings g)) :
    d.SoundUnload self l g := by
  have hrs : Holds self l rs := fun r => (hl r).trans hperm.mem_iff.symm
  obtain ⟨haccess, hsame⟩ := proper_accesses fun r hr => (hrs r).2 (has r hr)
  refine ⟨?_, fun r hr => ?_, ?_⟩
  · rw [hexit, proper_append, hsame]
    exact ⟨haccess, proper_releases (fun r hr => (hrs r).2 hr) hnodup⟩
  · rw [hexit, count_release]
    exact List.count_eq_one_of_mem hnodup (hperm.mem_iff.2 hr)
  · rw [hexit, perform_append, hsame]
    exact holds_releases hrs

theorem untouched_of_sound {x : Action ω ρ ο} (hok : d.Sound self w x) :
    d.Untouched self w x := by
  cases x with
  | load kept o => exact fun r other hne hr => perform_of_proper hok.1 hne hr
  | unload => exact fun r other hne hr => perform_of_proper hok.1 hne hr
  | register other r => trivial
  | unregister other r => trivial

theorem courteous_eq_sound (d : Driver γ ω ρ) (self : ο) : d.Courteous self = d.Sound self := by
  funext w x
  exact propext ⟨And.left, fun hok => ⟨hok, untouched_of_sound hok⟩⟩

/-! ## Runs -/

section Runs

theorem holds_update_other {r : ρ} {e : Option ο} (hl : Holds self l rs)
    (he : e ≠ some self) (hr : l r ≠ some self) : Holds self (Function.update l r e) rs := by
  intro r'
  by_cases h : r' = r
  · subst r'
    rw [Function.update_self]
    exact iff_of_false he fun hmem => hr ((hl r).2 hmem)
  · rw [Function.update_of_ne h]
    exact hl r'

variable [DecidableEq ο] {Ready : γ → Prop}

theorem settled_step {x : Action ω ρ ο}
    (hready : ∀ g o, Holds self w.ledger [] → granted self w.ledger (d.init g o).events = true →
      d.SoundLoad self w.ledger (d.init g o) → (d.init g o).ret = 0 → Ready (d.init g o).data)
    (hw : d.Settled self Ready w) (hok : d.Sound self w x) (h : d.step self w x = some w') :
    d.Settled self Ready w' := by
  cases x with
  | load kept o =>
      simp only [step] at h
      split_ifs at h with hc
      cases h
      rw [Bool.and_eq_true, Bool.not_eq_true'] at hc
      rw [Settled, if_neg (by simp [hc.1])] at hw
      rcases hok.2 with ⟨hret, hall⟩ | ⟨hret, hnone⟩
      · rw [Settled, if_pos (by simp [hret])]
        exact ⟨hall, hready _ _ hw hc.2 hok hret⟩
      · rw [Settled, if_neg (by simpa using hret)]
        exact hnone
  | unload =>
      simp only [step] at h
      split_ifs at h
      cases h
      rw [Settled, if_neg (by simp)]
      exact hok.2.2
  | register other r =>
      simp only [step] at h
      split_ifs at h with hc
      cases h
      have hne : w.ledger r ≠ some self := by rw [hc.2]; simp
      have hother : some other ≠ some self := fun heq => hc.1 (Option.some.inj heq)
      unfold Settled at hw ⊢
      split_ifs at hw ⊢
      · exact ⟨holds_update_other hw.1 hother hne, hw.2⟩
      · exact holds_update_other hw hother hne
  | unregister other r =>
      simp only [step] at h
      split_ifs at h with hc
      cases h
      have hne : w.ledger r ≠ some self := by
        rw [hc.2]
        exact fun heq => hc.1 (Option.some.inj heq)
      unfold Settled at hw ⊢
      split_ifs at hw ⊢
      · exact ⟨holds_update_other hw.1 (by simp) hne, hw.2⟩
      · exact holds_update_other hw (by simp) hne

theorem settled_exec {as : List (Action ω ρ ο)}
    (hready : ∀ (l : Ledger ρ ο) g o, Holds self l [] →
      granted self l (d.init g o).events = true → d.SoundLoad self l (d.init g o) →
        (d.init g o).ret = 0 → Ready (d.init g o).data)
    (hok : Meets (d.step self) (d.Sound self) d.start as)
    (h : exec (d.step self) d.start as = some w) : d.Settled self Ready w :=
  exec_invariant_of_meets (fun s _ _ hs hx hstep => settled_step (hready s.ledger) hs hx hstep)
    (d.settled_start self Ready) hok h

/-- Soundness of a run, compared with a condition on the outcomes of its steps. -/
theorem meets_sound_iff (Ready : γ → Prop) {P : ω → Prop} {Q : Prop}
    (hload : ∀ (l : Ledger ρ ο) g o, Holds self l [] → granted self l (d.init g o).events = true →
      (d.SoundLoad self l (d.init g o) ↔ P o))
    (hready : ∀ (l : Ledger ρ ο) g o, Holds self l [] →
      granted self l (d.init g o).events = true → d.SoundLoad self l (d.init g o) →
        (d.init g o).ret = 0 → Ready (d.init g o).data)
    (hunload : ∀ (l : Ledger ρ ο) g, Ready g → Holds self l (d.holdings g) →
      (d.SoundUnload self l g ↔ Q))
    {as : List (Action ω ρ ο)} (h : exec (d.step self) d.start as = some w) :
    Meets (d.step self) (d.Sound self) d.start as ↔
      Meets (d.step self) (fun _ x => x.Allowed P Q) d.start as := by
  refine meets_congr (I := d.Settled self Ready) (fun s x s' hs hx => ?_)
    (fun s x s' hs hok hx => settled_step (hready s.ledger) hs hok hx)
    (d.settled_start self Ready) h
  unfold Settled at hs
  cases x with
  | load kept o =>
      simp only [step] at hx
      split_ifs at hx with hc
      rw [Bool.and_eq_true, Bool.not_eq_true'] at hc
      rw [if_neg (by simp [hc.1])] at hs
      exact hload s.ledger _ o hs hc.2
  | unload =>
      simp only [step] at hx
      split_ifs at hx with hc
      rw [if_pos hc] at hs
      exact hunload s.ledger s.data hs.2 hs.1
  | register other r => exact Iff.rfl
  | unregister other r => exact Iff.rfl

theorem sound_exec
    (hload : ∀ (l : Ledger ρ ο) g o, Holds self l [] → granted self l (d.init g o).events = true →
      d.SoundLoad self l (d.init g o))
    (hunload : ∀ (l : Ledger ρ ο) g, Holds self l (d.holdings g) → d.SoundUnload self l g)
    {as : List (Action ω ρ ο)} (h : exec (d.step self) d.start as = some w) :
    Meets (d.step self) (d.Sound self) d.start as ∧ d.Settled self (fun _ => True) w := by
  have hiff := meets_sound_iff (fun _ => True) (P := fun _ => True) (Q := True)
    (fun l g o hl hg => iff_true_intro (hload l g o hl hg)) (fun _ _ _ _ _ _ _ => trivial)
    (fun l g _ hl => iff_true_intro (hunload l g hl)) h
  have hok := hiff.2 (meets_of_forall (fun _ x => by cases x <;> trivial) _ _)
  exact ⟨hok, settled_exec (fun _ _ _ _ _ _ _ => trivial) hok h⟩

end Runs

end Driver

end ResourceLedger
