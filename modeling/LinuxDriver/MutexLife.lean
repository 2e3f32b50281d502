import LinuxDriver.Interleaving
import LinuxDriver.KernelCalls

/-!
# The life of the mutex driver

`mutex/mutex.c`: `my_init` adds the cdev before it allocates `shared_resource`, so the device can
be opened and used while the pointer is still NULL. Here `my_init` and `my_exit` take one call at
a time, and users open, call and release files in between.
-/

open Interleaving KernelCalls

namespace MutexLife

theorem enomem_neg : (-12 : ℤ) < 0 := by decide

def enomem : Errno := ⟨-12, enomem_neg⟩

/-- The call that `my_init` or `my_exit` makes next. -/
inductive Phase
  | unloaded
  | allocChrdevRegion
  | cdevAdd
  | kmalloc
  | cdevDel
  | unregisterChrdevRegion (ret : Errno)
  | loaded
  | kfree
  | exitCdevDel
  | exitUnregisterChrdevRegion
  deriving DecidableEq

def Phase.exiting : Phase → Bool
  | .kfree => true
  | .exitCdevDel => true
  | .exitUnregisterChrdevRegion => true
  | _ => false

/-- An open file: the load of the module it was opened from, and the calls of `my_read` and
`my_write` that run on it. -/
structure File where
  load : ℕ
  calls : ℕ

/-- `loads` counts the loads of the module, `allocated` says which blocks of the heap are in use
and `initRet` is what `my_init` returned last. -/
structure World (ι : Type*) where
  phase : Phase
  loads : ℕ
  sharedResource : Option ℕ
  allocated : ℕ → Bool
  cdev : Bool
  initRet : ℤ
  opened : List ι
  file : ι → File

inductive Action (ι : Type*)
  | load
  | init (result : Except Errno ℕ)
  | unload
  | exit
  | open (i : ι)
  | call (i : ι)
  | return (i : ι)
  | release (i : ι)

namespace World

variable {ι : Type*} (w : World ι)

/-- `my_init` returns, and the module stays only if it returned 0. -/
def initReturns (ret : ℤ) : World ι :=
  { w with initRet := ret, phase := if ret = 0 then .loaded else .unloaded }

/-- The next call of `my_init`; a block that `kmalloc` returns was not in use. -/
def myInit (result : Except Errno ℕ) : Option (World ι) :=
  match w.phase with
  | .allocChrdevRegion => match result with
      | .ok _ => some { w with phase := .cdevAdd }
      | .error ret => some (w.initReturns ret)
  | .cdevAdd => match result with
      | .ok _ => some { w with cdev := true, phase := .kmalloc }
      | .error ret => some { w with phase := .unregisterChrdevRegion ret }
  | .kmalloc => match result with
      | .ok block =>
          if w.allocated block then none
          else some (initReturns { w with
            sharedResource := some block
            allocated := Function.update w.allocated block true } 0)
      | .error _ => some { w with sharedResource := none, phase := .cdevDel }
  | .cdevDel => some { w with cdev := false, phase := .unregisterChrdevRegion enomem }
  | .unregisterChrdevRegion ret => some (w.initReturns ret)
  | _ => none

/-- The next call of `my_exit`. -/
def myExit : Option (World ι) :=
  match w.phase with
  | .kfree => some { w with
      allocated := w.sharedResource.elim w.allocated fun block =>
        Function.update w.allocated block false
      phase := .exitCdevDel }
  | .exitCdevDel => some { w with cdev := false, phase := .exitUnregisterChrdevRegion }
  | .exitUnregisterChrdevRegion => some { w with phase := .unloaded }
  | _ => none

variable [DecidableEq ι]

def setFile (i : ι) (f : File) : World ι := { w with file := Function.update w.file i f }

def step (w : World ι) : Action ι → Option (World ι)
  | .load =>
      if w.phase = .unloaded then
        some { w with phase := .allocChrdevRegion, loads := w.loads + 1, sharedResource := none }
      else none
  | .init result => w.myInit result
  | .unload =>
      if w.phase = .loaded ∧ ∀ i ∈ w.opened, (w.file i).load ≠ w.loads then
        some { w with phase := .kfree }
      else none
  | .exit => w.myExit
  | .open i =>
      if w.cdev ∧ w.phase.exiting = false ∧ i ∉ w.opened then
        some (setFile { w with opened := i :: w.opened } i ⟨w.loads, 0⟩)
      else none
  | .call i =>
      if i ∈ w.opened then
        some (w.setFile i { w.file i with calls := (w.file i).calls + 1 })
      else none
  | .return i =>
      if i ∈ w.opened ∧ 0 < (w.file i).calls then
        some (w.setFile i { w.file i with calls := (w.file i).calls - 1 })
      else none
  | .release i =>
      if i ∈ w.opened ∧ (w.file i).calls = 0 then
        some { w with opened := w.opened.filter (· ≠ i) }
      else none

end World

variable {ι : Type*}

def start (allocated : ℕ → Bool) : World ι :=
  ⟨.unloaded, 0, none, allocated, false, 0, [], fun _ => ⟨0, 0⟩⟩

/-- Whatever runs has a block to work on: the one that its module allocated and has not freed. -/
def World.Safe (w : World ι) : Prop :=
  ∀ i ∈ w.opened, 0 < (w.file i).calls → (w.file i).load = w.loads ∧
    ∃ block, w.sharedResource = some block ∧ w.allocated block = true

def World.Timely (w : World ι) : Action ι → Prop
  | .call i => w.phase = .loaded ∧ (w.file i).load = w.loads
  | _ => True

instance (w : World ι) : ∀ a, Decidable (w.Timely a)
  | .call _ => inferInstanceAs (Decidable (_ ∧ _))
  | .load => isTrue trivial
  | .init _ => isTrue trivial
  | .unload => isTrue trivial
  | .exit => isTrue trivial
  | .open _ => isTrue trivial
  | .return _ => isTrue trivial
  | .release _ => isTrue trivial

/-- In `my_init` up to `kmalloc`, and after it has failed. -/
def Phase.early : Phase → Bool
  | .allocChrdevRegion => true
  | .cdevAdd => true
  | .kmalloc => true
  | .cdevDel => true
  | .unregisterChrdevRegion _ => true
  | _ => false

def Phase.added : Phase → Bool
  | .kmalloc => true
  | .cdevDel => true
  | .loaded => true
  | .kfree => true
  | .exitCdevDel => true
  | _ => false

theorem early_of_added {p : Phase} (hadded : p.added = true) (hexiting : p.exiting = false)
    (hloaded : p ≠ .loaded) : p.early = true := by
  cases p <;> simp_all [Phase.added, Phase.exiting, Phase.early]

/-- What holds as long as no call has started too early. -/
structure Inv (w : World ι) : Prop where
  cdev : w.cdev = w.phase.added
  early : w.phase.early = true → w.sharedResource = none
  loaded : w.phase = .loaded → ∃ block, w.sharedResource = some block ∧ w.allocated block = true
  absent : w.phase ≠ .loaded → ∀ i ∈ w.opened, (w.file i).load = w.loads →
    w.sharedResource = none
  running : ∀ i ∈ w.opened, 0 < (w.file i).calls → w.phase = .loaded ∧ (w.file i).load = w.loads
  past : ∀ i ∈ w.opened, (w.file i).load ≤ w.loads

theorem inv_start (allocated : ℕ → Bool) : Inv (start allocated : World ι) := by
  refine ⟨rfl, ?_, ?_, ?_, ?_, ?_⟩ <;> simp [start, Phase.early]

variable {w w' : World ι}

theorem Inv.safe (h : Inv w) : w.Safe := by
  intro i hi hcalls
  obtain ⟨hphase, hload⟩ := h.running i hi hcalls
  exact ⟨hload, h.loaded hphase⟩

theorem Inv.calls_eq_zero (h : Inv w) (hphase : w.phase ≠ .loaded) {i : ι} (hi : i ∈ w.opened) :
    (w.file i).calls = 0 := by
  by_contra hcalls
  exact hphase (h.running i hi (Nat.pos_of_ne_zero hcalls)).1

theorem Inv.advance (h : Inv w) (hphase : w.phase ≠ .loaded) (hopened : w'.opened = w.opened)
    (hfile : w'.file = w.file) (hloads : w.loads ≤ w'.loads) (hcdev : w'.cdev = w'.phase.added)
    (hearly : w'.phase.early = true → w'.sharedResource = none)
    (hloaded : w'.phase = .loaded →
      ∃ block, w'.sharedResource = some block ∧ w'.allocated block = true)
    (hkept : w'.phase ≠ .loaded → w'.sharedResource = none ∨
      w'.loads = w.loads ∧ w'.sharedResource = w.sharedResource) : Inv w' := by
  refine ⟨hcdev, hearly, hloaded, ?_, ?_, ?_⟩
  · intro hphase' i hi hload
    rw [hopened] at hi
    rw [hfile] at hload
    rcases hkept hphase' with hnone | ⟨hsame, hresource⟩
    · exact hnone
    · rw [hresource]
      exact h.absent hphase i hi (hload.trans hsame)
  · intro i hi hcalls
    rw [hopened] at hi
    rw [hfile, h.calls_eq_zero hphase hi] at hcalls
    exact absurd hcalls (Nat.lt_irrefl 0)
  · intro i hi
    rw [hopened] at hi
    rw [hfile]
    exact (h.past i hi).trans hloads

theorem Inv.withoutResource (h : Inv w) (hphase : w.phase ≠ .loaded)
    (hopened : w'.opened = w.opened) (hfile : w'.file = w.file) (hloads : w.loads ≤ w'.loads)
    (hcdev : w'.cdev = w'.phase.added) (hphase' : w'.phase ≠ .loaded)
    (hnone : w'.sharedResource = none) : Inv w' :=
  h.advance hphase hopened hfile hloads hcdev (fun _ => hnone) (fun hl => absurd hl hphase')
    fun _ => Or.inl hnone

theorem initReturns_errno (w : World ι) (ret : Errno) :
    w.initReturns ret = { w with initRet := ret, phase := .unloaded } := by
  rw [World.initReturns, if_neg (Int.ne_of_lt ret.2)]

theorem Inv.load (h : Inv w) (hphase : w.phase = .unloaded) :
    Inv { w with phase := .allocChrdevRegion, loads := w.loads + 1, sharedResource := none } := by
  have hcdev := h.cdev
  rw [hphase] at hcdev
  exact h.withoutResource (by simp [hphase]) rfl rfl (Nat.le_succ _) hcdev (by simp) rfl

theorem Inv.kmalloc (h : Inv w) (hphase : w.phase = .kmalloc) (block : ℕ) :
    Inv (World.initReturns { w with
      sharedResource := some block
      allocated := Function.update w.allocated block true } 0) := by
  have hcdev := h.cdev
  rw [hphase] at hcdev
  apply h.advance
  · simp [hphase]
  · rfl
  · rfl
  · exact Nat.le_refl _
  · exact hcdev
  · exact fun hearly => by cases hearly
  · exact fun _ => ⟨block, rfl, Function.update_self ..⟩
  · exact fun hnot => absurd rfl hnot

theorem Inv.myInit (h : Inv w) {result : Except Errno ℕ} (hstep : w.myInit result = some w') :
    Inv w' := by
  have hcdev := h.cdev
  have hearly := h.early
  cases hphase : w.phase with
  | allocChrdevRegion =>
      rw [hphase] at hcdev hearly
      cases result with
      | ok _ =>
          simp only [World.myInit, hphase, Option.some.injEq] at hstep
          subst hstep
          exact h.withoutResource (by simp [hphase]) rfl rfl (Nat.le_refl _) hcdev (by simp)
            (hearly rfl)
      | error ret =>
          simp only [World.myInit, hphase, Option.some.injEq, initReturns_errno] at hstep
          subst hstep
          exact h.withoutResource (by simp [hphase]) rfl rfl (Nat.le_refl _) hcdev (by simp)
            (hearly rfl)
  | cdevAdd =>
      rw [hphase] at hcdev hearly
      cases result with
      | ok _ =>
          simp only [World.myInit, hphase, Option.some.injEq] at hstep
          subst hstep
          exact h.withoutResource (by simp [hphase]) rfl rfl (Nat.le_refl _) rfl (by simp)
            (hearly rfl)
      | error ret =>
          simp only [World.myInit, hphase, Option.some.injEq] at hstep
          subst hstep
          exact h.withoutResource (by simp [hphase]) rfl rfl (Nat.le_refl _) hcdev (by simp)
            (hearly rfl)
  | kmalloc =>
      rw [hphase] at hcdev
      cases result with
      | ok block =>
          simp only [World.myInit, hphase] at hstep
          split_ifs at hstep
          cases hstep
          exact h.kmalloc hphase block
      | error ret =>
          simp only [World.myInit, hphase, Option.some.injEq] at hstep
          subst hstep
          exact h.withoutResource (by simp [hphase]) rfl rfl (Nat.le_refl _) hcdev (by simp) rfl
  | cdevDel =>
      rw [hphase] at hearly
      simp only [World.myInit, hphase, Option.some.injEq] at hstep
      subst hstep
      exact h.withoutResource (by simp [hphase]) rfl rfl (Nat.le_refl _) rfl (by simp)
        (hearly rfl)
  | unregisterChrdevRegion ret =>
      rw [hphase] at hcdev hearly
      simp only [World.myInit, hphase, Option.some.injEq, initReturns_errno] at hstep
      subst hstep
      exact h.withoutResource (by simp [hphase]) rfl rfl (Nat.le_refl _) hcdev (by simp)
        (hearly rfl)
  | unloaded => simp [World.myInit, hphase] at hstep
  | loaded => simp [World.myInit, hphase] at hstep
  | kfree => simp [World.myInit, hphase] at hstep
  | exitCdevDel => simp [World.myInit, hphase] at hstep
  | exitUnregisterChrdevRegion => simp [World.myInit, hphase] at hstep

/-- A step of `my_exit` leaves the pointer as it is, even to a block that it frees. -/
theorem Inv.leaving (h : Inv w) (hphase : w.phase ≠ .loaded) (hopened : w'.opened = w.opened)
    (hfile : w'.file = w.file) (hloads : w'.loads = w.loads) (hcdev : w'.cdev = w'.phase.added)
    (hphase' : w'.phase ≠ .loaded) (hearly : w'.phase.early = false)
    (hresource : w'.sharedResource = w.sharedResource) : Inv w' := by
  apply h.advance hphase hopened hfile hloads.ge hcdev
  · intro hearly'
    rw [hearly] at hearly'
    contradiction
  · exact fun hl => absurd hl hphase'
  · exact fun _ => Or.inr ⟨hloads, hresource⟩

theorem Inv.myExit (h : Inv w) (hstep : w.myExit = some w') : Inv w' := by
  have hcdev := h.cdev
  cases hphase : w.phase with
  | kfree =>
      rw [hphase] at hcdev
      simp only [World.myExit, hphase, Option.some.injEq] at hstep
      subst hstep
      exact h.leaving (by simp [hphase]) rfl rfl rfl hcdev (by simp) rfl rfl
  | exitCdevDel =>
      simp only [World.myExit, hphase, Option.some.injEq] at hstep
      subst hstep
      exact h.leaving (by simp [hphase]) rfl rfl rfl rfl (by simp) rfl rfl
  | exitUnregisterChrdevRegion =>
      rw [hphase] at hcdev
      simp only [World.myExit, hphase, Option.some.injEq] at hstep
      subst hstep
      exact h.leaving (by simp [hphase]) rfl rfl rfl hcdev (by simp) rfl rfl
  | unloaded => simp [World.myExit, hphase] at hstep
  | allocChrdevRegion => simp [World.myExit, hphase] at hstep
  | cdevAdd => simp [World.myExit, hphase] at hstep
  | kmalloc => simp [World.myExit, hphase] at hstep
  | cdevDel => simp [World.myExit, hphase] at hstep
  | unregisterChrdevRegion ret => simp [World.myExit, hphase] at hstep
  | loaded => simp [World.myExit, hphase] at hstep

theorem Inv.unload (h : Inv w) (hphase : w.phase = .loaded)
    (hclosed : ∀ i ∈ w.opened, (w.file i).load ≠ w.loads) : Inv { w with phase := .kfree } := by
  have hcdev := h.cdev
  rw [hphase] at hcdev
  refine ⟨hcdev, ?_, ?_, ?_, ?_, h.past⟩
  · exact fun hearly => by cases hearly
  · exact fun hloaded => by cases hloaded
  · exact fun _ i hi hload => absurd hload (hclosed i hi)
  · exact fun i hi hcalls => absurd (h.running i hi hcalls).2 (hclosed i hi)

section

variable [DecidableEq ι]

theorem Inv.setFile (h : Inv w) {i : ι} {f : File} {opened : List ι}
    (hopened : ∀ j ∈ opened, j ≠ i → j ∈ w.opened)
    (habsent : w.phase ≠ .loaded → f.load = w.loads → w.sharedResource = none)
    (hrunning : 0 < f.calls → w.phase = .loaded ∧ f.load = w.loads)
    (hpast : f.load ≤ w.loads) : Inv (World.setFile { w with opened := opened } i f) := by
  have hfile : ∀ P : File → Prop, P f → (∀ j ∈ w.opened, P (w.file j)) →
      ∀ j ∈ opened, P (Function.update w.file i f j) := by
    intro P hf hall j hj
    by_cases hji : j = i
    · subst hji
      rwa [Function.update_self]
    · rw [Function.update_of_ne hji]
      exact hall j (hopened j hj hji)
  refine ⟨h.cdev, h.early, h.loaded, ?_, ?_, ?_⟩
  · intro hphase
    exact hfile (fun g => g.load = w.loads → w.sharedResource = none) (habsent hphase)
      (h.absent hphase)
  · exact hfile (fun g => 0 < g.calls → w.phase = .loaded ∧ g.load = w.loads) hrunning h.running
  · exact hfile (fun g => g.load ≤ w.loads) hpast h.past

theorem Inv.release (h : Inv w) (i : ι) :
    Inv { w with opened := w.opened.filter (· ≠ i) } := by
  have hsub : ∀ j ∈ w.opened.filter (· ≠ i), j ∈ w.opened := fun j hj => List.mem_of_mem_filter hj
  refine ⟨h.cdev, h.early, h.loaded, ?_, ?_, ?_⟩
  · exact fun hphase j hj => h.absent hphase j (hsub j hj)
  · exact fun j hj => h.running j (hsub j hj)
  · exact fun j hj => h.past j (hsub j hj)

/-- The device can be opened while the pointer is NULL, or the block is there. -/
theorem Inv.open (h : Inv w) {i : ι} (hcdev : w.cdev = true) (hexiting : w.phase.exiting = false) :
    Inv (World.setFile { w with opened := i :: w.opened } i ⟨w.loads, 0⟩) := by
  apply h.setFile
  · exact fun j hj hji => (List.mem_cons.1 hj).resolve_left hji
  · intro hphase _
    apply h.early
    rw [h.cdev] at hcdev
    exact early_of_added hcdev hexiting hphase
  · exact fun hcalls => absurd hcalls (Nat.lt_irrefl 0)
  · exact Nat.le_refl _

theorem Inv.step (h : Inv w) {a : Action ι} (ha : w.Timely a) (hstep : w.step a = some w') :
    Inv w' := by
  cases a with
  | load =>
      simp only [World.step, Option.ite_none_right_eq_some] at hstep
      obtain ⟨hphase, hw'⟩ := hstep
      cases hw'
      exact h.load hphase
  | init result => exact h.myInit hstep
  | unload =>
      simp only [World.step, Option.ite_none_right_eq_some] at hstep
      obtain ⟨⟨hphase, hclosed⟩, hw'⟩ := hstep
      cases hw'
      exact h.unload hphase hclosed
  | exit => exact h.myExit hstep
  | «open» i =>
      simp only [World.step, Option.ite_none_right_eq_some] at hstep
      obtain ⟨⟨hcdev, hexiting, -⟩, hw'⟩ := hstep
      cases hw'
      exact h.open hcdev hexiting
  | call i =>
      simp only [World.step, Option.ite_none_right_eq_some] at hstep
      obtain ⟨hi, hw'⟩ := hstep
      cases hw'
      exact h.setFile (fun j hj _ => hj) (fun hphase hload => h.absent hphase i hi hload)
        (fun _ => ha) (h.past i hi)
  | «return» i =>
      simp only [World.step, Option.ite_none_right_eq_some] at hstep
      obtain ⟨⟨hi, hcalls⟩, hw'⟩ := hstep
      cases hw'
      exact h.setFile (fun j hj _ => hj) (fun hphase hload => h.absent hphase i hi hload)
        (fun _ => h.running i hi hcalls) (h.past i hi)
  | release i =>
      simp only [World.step, Option.ite_none_right_eq_some] at hstep
      obtain ⟨-, hw'⟩ := hstep
      cases hw'
      exact h.release i

theorem Inv.timely_of_safe (h : Inv w) {a : Action ι} (hstep : w.step a = some w')
    (hsafe : w'.Safe) : w.Timely a := by
  cases a with
  | call i =>
      simp only [World.step, Option.ite_none_right_eq_some] at hstep
      obtain ⟨hi, hw'⟩ := hstep
      cases hw'
      have hrun := hsafe i hi
      simp only [World.setFile, Function.update_self] at hrun
      obtain ⟨hload, block, hblock, -⟩ := hrun (Nat.succ_pos _)
      refine ⟨?_, hload⟩
      by_contra hphase
      rw [h.absent hphase i hi hload] at hblock
      contradiction
  | load => trivial
  | init result => trivial
  | unload => trivial
  | exit => trivial
  | «open» i => trivial
  | «return» i => trivial
  | release i => trivial

/-- Every call of a run has its block in every state exactly when every call starts after the
`kmalloc` of its module. -/
theorem mutex_live_with_resource_iff (allocated : ℕ → Bool) {schedule : List (Action ι)}
    {w : World ι} (h : exec World.step (start allocated) schedule = some w) :
    (∀ pre post v, schedule = pre ++ post → exec World.step (start allocated) pre = some v →
      v.Safe) ↔ Meets World.step World.Timely (start allocated) schedule := by
  rw [forall_reached_iff_meets (inv_start allocated).safe]
  apply meets_congr (I := Inv) _ _ (inv_start allocated) h
  · intro v a v' hv hstep
    constructor
    · exact fun hsafe => hv.timely_of_safe hstep (hsafe v' hstep)
    · intro ha v'' hstep'
      exact (hv.step ha hstep').safe
  · intro v a v' hv hsafe hstep
    exact hv.step (hv.timely_of_safe hstep (hsafe v' hstep)) hstep

end

def orderly : List (Action Unit) :=
  [.load, .init (.ok 0), .init (.ok 0), .init (.ok 7), .open (), .call (), .return (),
    .release (), .unload, .exit, .exit, .exit]

theorem mutex_live_orderly :
    ∃ w, exec World.step (start fun _ => false) orderly = some w ∧ w.allocated 7 = false ∧
      ∀ pre post v, orderly = pre ++ post →
        exec World.step (start fun _ => false) pre = some v → v.Safe := by
  have hrun : (exec World.step (start fun _ => false) orderly).any
      (fun w => w.allocated 7 = false) = true := by decide +kernel
  have htimely : Meets World.step World.Timely (start fun _ => false) orderly := by
    decide +kernel
  obtain ⟨w, hexec, hw⟩ := exists_of_exec_any _ _ _ hrun
  rw [decide_eq_true_eq] at hw
  exact ⟨w, hexec, hw, (mutex_live_with_resource_iff _ hexec).2 htimely⟩

/-- The device is opened and read between `cdev_add` and `kmalloc`. -/
def early : List (Action Unit) :=
  [.load, .init (.ok 0), .init (.ok 0), .open (), .call ()]

theorem mutex_live_without_resource :
    ∃ w, exec World.step (start fun _ => false) early = some w ∧ w.sharedResource = none ∧
      (w.file ()).calls = 1 ∧ ¬ w.Safe := by
  have hrun : (exec World.step (start fun _ => false) early).any (fun w =>
      w.sharedResource = none ∧ (w.file ()).calls = 1 ∧ () ∈ w.opened) = true := by
    decide +kernel
  obtain ⟨w, hexec, hw⟩ := exists_of_exec_any _ _ _ hrun
  rw [decide_eq_true_eq] at hw
  obtain ⟨hnone, hcalls, hopened⟩ := hw
  refine ⟨w, hexec, hnone, hcalls, ?_⟩
  intro hsafe
  obtain ⟨-, block, hblock, -⟩ := hsafe () hopened (by rw [hcalls]; exact Nat.one_pos)
  rw [hnone] at hblock
  contradiction

end MutexLife
