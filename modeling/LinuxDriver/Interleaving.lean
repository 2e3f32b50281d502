import Mathlib.Data.List.Basic
import Mathlib.Data.Nat.Basic
import Mathlib.Order.Basic

/-!
# Runs of a step function under a schedule

A concurrent system is a partial step function: the action says which party moves and
`none` says that the party cannot move. A schedule is a list of actions, and `exec` follows
it. `Meets` restricts a schedule to the steps a condition allows. The rules below lift facts
about one step to whole runs.
-/

namespace Interleaving

variable {σ α : Type*}

/-- Follow a schedule; the run fails at the first action that is not enabled. -/
def exec (step : σ → α → Option σ) : σ → List α → Option σ
  | s, [] => some s
  | s, a :: as => (step s a).bind fun s' => exec step s' as

/-- Every action of the schedule satisfies `ok` in the state in which it is taken. -/
def Meets (step : σ → α → Option σ) (ok : σ → α → Prop) : σ → List α → Prop
  | _, [] => True
  | s, a :: as => ok s a ∧ ∀ s', step s a = some s' → Meets step ok s' as

/-- A schedule on fixed inputs is checked against a decidable condition by running it. -/
def Meets.decidable (step : σ → α → Option σ) (ok : σ → α → Prop) [∀ s a, Decidable (ok s a)] :
    ∀ s as, Decidable (Meets step ok s as)
  | _, [] => isTrue trivial
  | s, a :: as =>
      match h : step s a with
      | none => decidable_of_iff (ok s a) ⟨fun ha => ⟨ha, by simp [h]⟩, And.left⟩
      | some s' =>
          have := Meets.decidable step ok s' as
          decidable_of_iff (ok s a ∧ Meets step ok s' as) (by simp [Meets, h])

instance (step : σ → α → Option σ) (ok : σ → α → Prop) [∀ s a, Decidable (ok s a)] (s : σ)
    (as : List α) : Decidable (Meets step ok s as) :=
  Meets.decidable step ok s as

def Stuck (step : σ → α → Option σ) (s : σ) : Prop := ∀ a, step s a = none

variable {step : σ → α → Option σ} {ok : σ → α → Prop}

@[simp] theorem exec_nil (s : σ) : exec step s [] = some s := rfl

theorem exec_cons_eq_some {s t : σ} {a : α} {as : List α} :
    exec step s (a :: as) = some t ↔ ∃ s', step s a = some s' ∧ exec step s' as = some t := by
  simp [exec, Option.bind_eq_some_iff]

theorem exec_cons {s s' : σ} {a : α} (h : step s a = some s') (as : List α) :
    exec step s (a :: as) = exec step s' as := by
  simp [exec, h]

theorem exec_append (s : σ) (as bs : List α) :
    exec step s (as ++ bs) = (exec step s as).bind fun t => exec step t bs := by
  induction as generalizing s with
  | nil => rfl
  | cons a as ih =>
      cases h : step s a with
      | none => simp [exec, h]
      | some s' => simp only [List.cons_append, exec_cons h, ih]

theorem exec_append_of_eq {s t : σ} {as : List α} (h : exec step s as = some t) (bs : List α) :
    exec step s (as ++ bs) = exec step t bs := by
  rw [exec_append, h, Option.bind_some]

theorem exec_trans {s t u : σ} {as bs : List α} (hs : exec step s as = some t)
    (ht : exec step t bs = some u) : exec step s (as ++ bs) = some u :=
  (exec_append_of_eq hs bs).trans ht

theorem exists_of_exec_any (s : σ) (as : List α) (f : σ → Bool)
    (h : (exec step s as).any f = true) : ∃ t, exec step s as = some t ∧ f t = true := by
  cases he : exec step s as with
  | none => simp [he] at h
  | some t => exact ⟨t, rfl, by simpa [he] using h⟩

theorem exec_invariant_of_meets {I : σ → Prop}
    (hstep : ∀ s a s', I s → ok s a → step s a = some s' → I s')
    {s t : σ} {as : List α} (hs : I s) (hok : Meets step ok s as)
    (h : exec step s as = some t) : I t := by
  induction as generalizing s with
  | nil =>
      cases h
      exact hs
  | cons a as ih =>
      obtain ⟨s', ha, has⟩ := exec_cons_eq_some.1 h
      exact ih (hstep s a s' hs hok.1 ha) (hok.2 s' ha) has

theorem meets_of_forall (hok : ∀ s a, ok s a) (s : σ) (as : List α) : Meets step ok s as := by
  induction as generalizing s with
  | nil => trivial
  | cons a as ih => exact ⟨hok s a, fun s' _ => ih s'⟩

theorem exec_invariant {I : σ → Prop} (hstep : ∀ s a s', I s → step s a = some s' → I s')
    {s t : σ} {as : List α} (hs : I s) (h : exec step s as = some t) : I t :=
  have hok : Meets step (fun _ _ => True) s as := meets_of_forall (fun _ _ => trivial) s as
  exec_invariant_of_meets (fun s a s' hI _ ha => hstep s a s' hI ha) hs hok h

theorem meets_append {s : σ} {as bs : List α} : Meets step ok s (as ++ bs) ↔
    Meets step ok s as ∧ ∀ t, exec step s as = some t → Meets step ok t bs := by
  induction as generalizing s with
  | nil => simp [Meets]
  | cons a as ih =>
      rw [List.cons_append, Meets, Meets, and_assoc]
      apply and_congr_right
      intro _
      cases ha : step s a with
      | none => simp [exec, ha]
      | some s' => simp [exec, ha, ih]

theorem exists_of_not_meets {s : σ} {as : List α} (h : ¬ Meets step ok s as) :
    ∃ pre a post u, as = pre ++ a :: post ∧ exec step s pre = some u ∧ ¬ ok u a := by
  induction as generalizing s with
  | nil => exact absurd trivial h
  | cons a as ih =>
      by_cases ha : ok s a
      · obtain ⟨s', hs', hrest⟩ : ∃ s', step s a = some s' ∧ ¬ Meets step ok s' as := by
          simpa [Meets, ha] using h
        obtain ⟨pre, b, post, u, rfl, hpre, hb⟩ := ih hrest
        exact ⟨a :: pre, b, post, u, rfl, by rw [exec_cons hs', hpre], hb⟩
      · exact ⟨[], a, as, s, rfl, rfl, ha⟩

/-- A property holds in every state that a run reaches when every step leads to it. -/
theorem forall_reached_iff_meets {P : σ → Prop} {s : σ} {as : List α} (hs : P s) :
    (∀ pre post v, as = pre ++ post → exec step s pre = some v → P v) ↔
      Meets step (fun s a => ∀ s', step s a = some s' → P s') s as := by
  induction as generalizing s with
  | nil =>
      refine iff_of_true ?_ trivial
      intro pre post v hnil hv
      rw [(List.append_eq_nil_iff.1 hnil.symm).1] at hv
      cases hv
      exact hs
  | cons a as ih =>
      constructor
      · intro hall
        have ha : ∀ s', step s a = some s' → P s' := fun s' hs' =>
          hall [a] as s' rfl (by rw [exec_cons hs']; rfl)
        refine ⟨ha, fun s' hs' => (ih (ha s' hs')).1 ?_⟩
        intro pre post v hsplit hv
        exact hall (a :: pre) post v (congrArg (a :: ·) hsplit) (by rwa [exec_cons hs'])
      · rintro ⟨ha, hrest⟩ pre post v hsplit hv
        cases pre with
        | nil =>
            cases hv
            exact hs
        | cons b pre =>
            obtain ⟨rfl, htail⟩ := List.cons.inj hsplit
            obtain ⟨s', hs', hv⟩ := exec_cons_eq_some.1 hv
            exact (ih (ha s' hs')).2 (hrest s' hs') pre post v htail hv

/-- Two conditions that agree where an invariant holds, which the first one preserves. -/
theorem meets_congr {ok' : σ → α → Prop} {I : σ → Prop}
    (hiff : ∀ s a s', I s → step s a = some s' → (ok s a ↔ ok' s a))
    (hpres : ∀ s a s', I s → ok s a → step s a = some s' → I s')
    {s t : σ} {as : List α} (hs : I s) (h : exec step s as = some t) :
    Meets step ok s as ↔ Meets step ok' s as := by
  induction as generalizing s with
  | nil => exact Iff.rfl
  | cons a as ih =>
      obtain ⟨s', ha, has⟩ := exec_cons_eq_some.1 h
      have hnext : ∀ u, step s a = some u → u = s' := fun u hu => by
        rw [ha] at hu
        exact (Option.some.inj hu).symm
      have hiffa := hiff s a s' hs ha
      constructor
      · rintro ⟨hok, hrest⟩
        refine ⟨hiffa.1 hok, fun u hu => ?_⟩
        rw [hnext u hu]
        exact (ih (hpres s a s' hs hok ha) has).1 (hrest s' ha)
      · rintro ⟨hok', hrest⟩
        have hok := hiffa.2 hok'
        refine ⟨hok, fun u hu => ?_⟩
        rw [hnext u hu]
        exact (ih (hpres s a s' hs hok ha) has).2 (hrest s' ha)

/-- Two runs under one schedule stay alike to whoever sees only what `view` shows, if no step
depends on the rest. -/
theorem exec_congr {τ : Type*} {view : σ → τ}
    (hstep : ∀ s t a, view s = view t → (step s a).map view = (step t a).map view) {s t : σ}
    (h : view s = view t) (as : List α) :
    (exec step s as).map view = (exec step t as).map view := by
  induction as generalizing s t with
  | nil => exact congrArg some h
  | cons a as ih =>
      have ha := hstep s t a h
      cases hs : step s a with
      | none =>
          rw [hs, Option.map_none, eq_comm, Option.map_eq_none_iff] at ha
          rw [exec, exec, hs, ha]
      | some s' =>
          rw [hs, Option.map_some, eq_comm, Option.map_eq_some_iff] at ha
          obtain ⟨t', ht, hview⟩ := ha
          rw [exec_cons hs, exec_cons ht]
          exact ih hview.symm

/-- A run that ends within a bound of a quantity that never falls took no step that exceeds
the bound. -/
theorem meets_of_bounded {f : σ → ℕ} {B : ℕ} {I : σ → Prop}
    (hI : ∀ s a s', I s → step s a = some s' → I s')
    (hmono : ∀ s a s', I s → step s a = some s' → f s ≤ f s')
    (hexceed : ∀ s a s', I s → step s a = some s' → ¬ ok s a → B < f s')
    {s t : σ} {as : List α} (hs : I s) (h : exec step s as = some t) (ht : f t ≤ B) :
    Meets step ok s as := by
  induction as generalizing s with
  | nil => trivial
  | cons a as ih =>
      obtain ⟨s', ha, has⟩ := exec_cons_eq_some.1 h
      have hs' := hI s a s' hs ha
      have hle : f s' ≤ f t :=
        (exec_invariant (I := fun u => I u ∧ f s' ≤ f u)
          (fun u b u' hu hb => ⟨hI u b u' hu.1 hb, Nat.le_trans hu.2 (hmono u b u' hu.1 hb)⟩)
          ⟨hs', Nat.le_refl _⟩ has).2
      refine ⟨?_, fun u hu => ?_⟩
      · by_contra hno
        have := hexceed s a s' hs ha hno
        omega
      · rw [ha] at hu
        cases hu
        exact ih hs' has

end Interleaving
