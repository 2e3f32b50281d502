import LinuxDriver.KernelCalls
import Mathlib.Data.Finset.Basic

/-!
# mynetwork: probe and remove

`network/mynetwork.c` over any number of PCI devices. `my_net_probe` registers a net device and
`my_net_remove` takes it back through `pci_get_drvdata`. No `pci_set_drvdata` has stored it
there, so remove finds NULL.
-/

open KernelCalls Interleaving

namespace MyNetwork

variable {δ : Type*}

/-- `bound` has the net device that the probe of a bound device registered. -/
structure World (δ : Type*) where
  bound : δ → Option ℕ
  drvdata : δ → Option ℕ
  allocated : Finset ℕ
  registered : Finset ℕ
  enabled : δ → ℕ
  oops : Bool

structure Outcome where
  allocEtherdev : Option ℕ
  registerNetdev : Status
  pciEnableDevice : Status

inductive Action (δ : Type*)
  | probe (pdev : δ) (o : Outcome)
  | remove (pdev : δ)

def enomem : ℤ := 12

def initial (δ : Type*) : World δ where
  bound := fun _ => none
  drvdata := fun _ => none
  allocated := ∅
  registered := ∅
  enabled := fun _ => 0
  oops := false

namespace World

variable (w : World δ)

def alloc (netdev : ℕ) : World δ := { w with allocated := insert netdev w.allocated }

def register (netdev : ℕ) : World δ := { w with registered := insert netdev w.registered }

/-- Unregistering or freeing NULL is an access to it. -/
def unregisterNetdev : Option ℕ → World δ
  | some netdev => { w with registered := w.registered.erase netdev }
  | none => { w with oops := true }

def freeNetdev : Option ℕ → World δ
  | some netdev => { w with allocated := w.allocated.erase netdev }
  | none => { w with oops := true }

theorem freeNetdev_alloc {netdev : ℕ} (h : netdev ∉ w.allocated) :
    (w.alloc netdev).freeNetdev netdev = w := by
  simp only [alloc, freeNetdev, Finset.erase_insert h]

theorem unregisterNetdev_register {netdev : ℕ} (h : netdev ∉ w.registered) :
    (w.register netdev).unregisterNetdev netdev = w := by
  simp only [register, unregisterNetdev, Finset.erase_insert h]

variable [DecidableEq δ]

def enable (pdev : δ) : World δ :=
  { w with enabled := Function.update w.enabled pdev (w.enabled pdev + 1) }

def pciDisableDevice (pdev : δ) : World δ :=
  { w with enabled := Function.update w.enabled pdev (w.enabled pdev - 1) }

end World

variable [DecidableEq δ]

def myNetProbe (w : World δ) (pdev : δ) (o : Outcome) : World δ × ℤ :=
  match o.allocEtherdev with
  | none => (w, -enomem)
  | some netdev =>
      let w := w.alloc netdev
      match o.registerNetdev with
      | .error err => (w.freeNetdev netdev, err)
      | .ok _ =>
          let w := w.register netdev
          match o.pciEnableDevice with
          | .error err => ((w.unregisterNetdev netdev).freeNetdev netdev, err)
          | .ok _ => (w.enable pdev, 0)

def myNetRemove (w : World δ) (pdev : δ) : World δ :=
  let netdev := w.drvdata pdev
  ((w.unregisterNetdev netdev).freeNetdev netdev).pciDisableDevice pdev

/-- The bus probes devices that are not bound and removes devices that are; the allocator hands
out what is not allocated. -/
def step (w : World δ) : Action δ → Option (World δ)
  | .probe pdev o =>
      if w.bound pdev = none ∧ o.allocEtherdev.all (fun netdev => netdev ∉ w.allocated) then
        let (w', ret) := myNetProbe w pdev o
        some { w' with
          bound := if ret = 0 then Function.update w.bound pdev o.allocEtherdev else w.bound }
      else none
  | .remove pdev =>
      if w.bound pdev = none then none
      else some { myNetRemove w pdev with
        bound := Function.update w.bound pdev none
        drvdata := Function.update w.drvdata pdev none }

/-- The registered and the allocated net devices are those of the bound PCI devices. -/
structure Agree (w : World δ) : Prop where
  registered : ∀ netdev, netdev ∈ w.registered ↔ ∃ pdev, w.bound pdev = some netdev
  allocated : w.allocated = w.registered

/-- A failed probe leaves nothing behind, a remove takes back what the probe of its device
registered, and the tables agree afterwards. -/
def Sound (w : World δ) (a : Action δ) : Prop :=
  (∀ w', step w a = some w' → Agree w') ∧
    match a with
    | .probe pdev o => (myNetProbe w pdev o).2 ≠ 0 →
        (myNetProbe w pdev o).1.registered = w.registered ∧
          (myNetProbe w pdev o).1.allocated = w.allocated
    | .remove pdev => ∀ netdev, w.bound pdev = some netdev →
        (myNetRemove w pdev).registered = w.registered.erase netdev ∧
          (myNetRemove w pdev).allocated = w.allocated.erase netdev ∧
            (myNetRemove w pdev).oops = w.oops

theorem myNetProbe_cases {w : World δ} (pdev : δ) {o : Outcome}
    (hfresh : ∀ netdev, o.allocEtherdev = some netdev →
      netdev ∉ w.allocated ∧ netdev ∉ w.registered) :
    (∃ ret, ret ≠ 0 ∧ myNetProbe w pdev o = (w, ret)) ∨
      ∃ netdev, o.allocEtherdev = some netdev ∧
        myNetProbe w pdev o = (((w.alloc netdev).register netdev).enable pdev, 0) := by
  cases halloc : o.allocEtherdev with
  | none =>
      apply Or.inl
      exact ⟨-enomem, by decide, by simp [myNetProbe, halloc]⟩
  | some netdev =>
      obtain ⟨hnew, hnew'⟩ := hfresh netdev halloc
      have hreg' : netdev ∉ (w.alloc netdev).registered := hnew'
      cases hreg : o.registerNetdev with
      | error err =>
          apply Or.inl
          exact ⟨err, Int.ne_of_lt err.2, by
            simp only [myNetProbe, halloc, hreg, w.freeNetdev_alloc hnew]⟩
      | ok u =>
          cases hen : o.pciEnableDevice with
          | error err =>
              apply Or.inl
              exact ⟨err, Int.ne_of_lt err.2, by
                simp only [myNetProbe, halloc, hreg, hen,
                  (w.alloc netdev).unregisterNetdev_register hreg', w.freeNetdev_alloc hnew]⟩
          | ok u =>
              apply Or.inr
              exact ⟨netdev, rfl, by simp only [myNetProbe, halloc, hreg, hen]⟩

/-- Nothing in the driver ever sets `drvdata`. -/
structure Invariant (w : World δ) : Prop where
  agree : Agree w
  drvdata : ∀ pdev, w.drvdata pdev = none

omit [DecidableEq δ] in
theorem invariant_initial : Invariant (initial δ) := by
  refine ⟨⟨fun netdev => ?_, rfl⟩, fun _ => rfl⟩
  simp [initial]

/-- A net device joins the registered ones as its PCI device joins the bound ones. -/
theorem agree_bind {w w' : World δ} {pdev : δ} {netdev : ℕ} (hw : Agree w)
    (hunbound : w.bound pdev = none) (hreg : w'.registered = insert netdev w.registered)
    (halloc : w'.allocated = insert netdev w.allocated)
    (hbound : w'.bound = Function.update w.bound pdev (some netdev)) : Agree w' := by
  constructor
  · intro n
    rw [hreg, Finset.mem_insert, hw.registered]
    constructor
    · rintro (rfl | ⟨d, hd⟩)
      · exact ⟨pdev, by rw [hbound, Function.update_self]⟩
      · have hne : d ≠ pdev := fun h => by
          rw [h, hunbound] at hd
          contradiction
        exact ⟨d, by rw [hbound, Function.update_of_ne hne, hd]⟩
    · rintro ⟨d, hd⟩
      rw [hbound] at hd
      by_cases hdp : d = pdev
      · rw [hdp, Function.update_self] at hd
        exact Or.inl (Option.some.inj hd).symm
      · rw [Function.update_of_ne hdp] at hd
        exact Or.inr ⟨d, hd⟩
  · rw [hreg, halloc, hw.allocated]

theorem step_probe_eq_some {w w' : World δ} {pdev : δ} {o : Outcome}
    (h : step w (.probe pdev o) = some w') : w.bound pdev = none ∧
      (∀ netdev, o.allocEtherdev = some netdev → netdev ∉ w.allocated) ∧
        w' = { (myNetProbe w pdev o).1 with
          bound := if (myNetProbe w pdev o).2 = 0 then
            Function.update w.bound pdev o.allocEtherdev else w.bound } := by
  simp only [step] at h
  rw [Option.ite_none_right_eq_some] at h
  obtain ⟨⟨hunbound, hfree⟩, hw'⟩ := h
  refine ⟨hunbound, fun netdev halloc => ?_, (Option.some.inj hw').symm⟩
  rw [halloc] at hfree
  simpa using hfree

theorem sound_probe {w w' : World δ} {pdev : δ} {o : Outcome} (hw : Invariant w)
    (h : step w (.probe pdev o) = some w') : Sound w (.probe pdev o) ∧ Invariant w' := by
  obtain ⟨hunbound, hfree, hw'⟩ := step_probe_eq_some h
  have hfresh : ∀ netdev, o.allocEtherdev = some netdev →
      netdev ∉ w.allocated ∧ netdev ∉ w.registered := fun netdev halloc =>
    ⟨hfree netdev halloc, hw.agree.allocated ▸ hfree netdev halloc⟩
  have hafter : Invariant w' := by
    rcases myNetProbe_cases pdev hfresh with ⟨ret, hret, heq⟩ | ⟨netdev, halloc, heq⟩
    · rw [heq, if_neg hret] at hw'
      subst w'
      exact hw
    · rw [heq, if_pos rfl, halloc] at hw'
      subst w'
      exact ⟨agree_bind hw.agree hunbound rfl rfl rfl, hw.drvdata⟩
  refine ⟨⟨fun v hv => ?_, fun hret => ?_⟩, hafter⟩
  · rw [h] at hv
    cases hv
    exact hafter.agree
  · rcases myNetProbe_cases pdev hfresh with ⟨ret, -, heq⟩ | ⟨netdev, -, heq⟩
    · rw [heq]
      exact ⟨rfl, rfl⟩
    · rw [heq] at hret
      contradiction

/-- Remove unregisters NULL and leaves the net device where it is. -/
theorem not_sound_remove {w w' : World δ} {pdev : δ} (hw : Invariant w)
    (h : step w (.remove pdev) = some w') : ¬ Sound w (.remove pdev) := by
  rintro ⟨-, hremove⟩
  simp only [step] at h
  split_ifs at h with hbound
  obtain ⟨netdev, hnetdev⟩ := Option.ne_none_iff_exists'.1 hbound
  have hreg := (hremove netdev hnetdev).1
  have hmem : netdev ∈ w.registered := (hw.agree.registered netdev).2 ⟨pdev, hnetdev⟩
  have hsame : (myNetRemove w pdev).registered = w.registered := by
    simp only [myNetRemove, hw.drvdata pdev]
    rfl
  rw [hsame] at hreg
  rw [hreg] at hmem
  exact Finset.notMem_erase _ _ hmem

/-- A run keeps the three tables in step exactly when it removes no device. -/
theorem mynetwork_agrees_iff (as : List (Action δ)) (w : World δ)
    (h : exec step (initial δ) as = some w) :
    Meets step Sound (initial δ) as ↔
      Meets step (fun _ a => ∀ pdev, a ≠ .remove pdev) (initial δ) as := by
  apply meets_congr (I := Invariant) _ _ invariant_initial h
  · intro s a s' hs ha
    cases a with
    | probe pdev o => exact iff_of_true (sound_probe hs ha).1 (by simp)
    | remove pdev => exact iff_of_false (not_sound_remove hs ha) (by simp)
  · intro s a s' hs hok ha
    cases a with
    | probe pdev o => exact (sound_probe hs ha).2
    | remove pdev => exact absurd hok (not_sound_remove hs ha)

/-- Two devices, one of which cannot be enabled. -/
def twoProbes : List (Action Bool) :=
  [.probe true ⟨some 1, .ok (), .ok ()⟩, .probe false ⟨some 2, .ok (), .error ⟨-5, by decide⟩⟩]

theorem mynetwork_agrees_twoProbes :
    ∃ w, exec step (initial Bool) twoProbes = some w ∧ w.registered = {1} ∧
      Meets step Sound (initial Bool) twoProbes := by
  obtain ⟨w, hw, hc⟩ : ∃ w, exec step (initial Bool) twoProbes = some w ∧
      decide (w.registered = {1}) = true := exists_of_exec_any _ _ _ (by decide +kernel)
  refine ⟨w, hw, of_decide_eq_true hc, (mynetwork_agrees_iff twoProbes w hw).2 ?_⟩
  exact ⟨by simp, fun _ _ => ⟨by simp, fun _ _ => trivial⟩⟩

/-- A device is probed and removed: its net device stays registered and allocated. -/
def probeRemove : List (Action Unit) := [.probe () ⟨some 1, .ok (), .ok ()⟩, .remove ()]

theorem mynetwork_remove_oops :
    (∃ w, exec step (initial Unit) probeRemove = some w ∧ w.bound () = none ∧
      w.registered = {1} ∧ w.oops = true) ∧ ¬ Meets step Sound (initial Unit) probeRemove := by
  constructor
  · obtain ⟨w, hw, hc⟩ : ∃ w, exec step (initial Unit) probeRemove = some w ∧
        decide (w.bound () = none ∧ w.registered = {1} ∧ w.oops = true) = true :=
      exists_of_exec_any _ _ _ (by decide +kernel)
    exact ⟨w, hw, of_decide_eq_true hc⟩
  · intro hmeets
    have hafter : ∃ v, step (initial Unit) (.probe () ⟨some 1, .ok (), .ok ()⟩) = some v ∧
        ∃ u, step v (.remove ()) = some u := ⟨_, rfl, _, rfl⟩
    obtain ⟨v, hv, u, hu⟩ := hafter
    exact not_sound_remove (sound_probe invariant_initial hv).2 hu (hmeets.2 v hv).1

end MyNetwork
