import LinuxDriver.KernelCalls

/-!
# sys2 and chrdevbase: loading over a shared registry

The netfilter hook of `sys2/sys2.c` and the major number 200 of `chrdevbase/chrdevbase.c` are
entries of tables that other drivers use too. `register_net_hooks` drops the result of
`nf_register_net_hook` and `chrdevbase_init` that of `register_chrdev`, so the module stays
loaded without its entry, and its exit routine removes an entry that is not its own.
-/

open ResourceLedger KernelCalls Interleaving

namespace OwnRegistrations

def enomem : ℤ := 12

/-! ## sys2 -/

inductive Sys2Resource
  | kobj (p : Ptr)
  | sysfsFile (kobj : Ptr)
  | netHook
  deriving DecidableEq

/-- `mymodule_kobj`, and whether `nf_ops.hook` is `packet_hook` or NULL. -/
structure Sys2Data where
  mymoduleKobj : Ptr
  nfOpsHook : Bool

structure Sys2Outcome where
  kobjectCreateAndAdd : Option ℕ
  sysfsCreateFile : Status
  nfRegisterNetHook : Status

abbrev Sys2Init := Attempt Sys2Data Sys2Resource

/-- `ret = register_net_hooks()`: the result of the call inside is dropped. -/
def registerNetHooks (a : Sys2Init) (o : Sys2Outcome) : Sys2Init :=
  { call a .netHook o.nfRegisterNetHook with ret := 0 }

def mymoduleInit (g : Sys2Data) (o : Sys2Outcome) : Sys2Init :=
  let a := create (enter g) (fun g p => { g with mymoduleKobj := p }) .kobj
    (.ofNullable o.kobjectCreateAndAdd)
  let kobj := a.data.mymoduleKobj
  if kobj = .null then { a with ret := -enomem }
  else
    let a := call a (.sysfsFile kobj) o.sysfsCreateFile
    if a.ret ≠ 0 then a.emit (.release (.kobj kobj))
    else
      let a := registerNetHooks a o
      if a.ret ≠ 0 then (a.emit (.release (.sysfsFile kobj))).emit (.release (.kobj kobj))
      else { a with ret := 0 }

def mymoduleExit (g : Sys2Data) : Sys2Data × List (Event Sys2Resource) :=
  ({ g with nfOpsHook := false },
    [.release .netHook, .release (.sysfsFile g.mymoduleKobj), .release (.kobj g.mymoduleKobj)])

def sys2 : Driver Sys2Data Sys2Outcome Sys2Resource where
  fresh := ⟨.null, true⟩
  init := mymoduleInit
  exit := mymoduleExit
  holdings g := [.kobj g.mymoduleKobj, .sysfsFile g.mymoduleKobj, .netHook]

/-- The hook is registered when init gets as far as registering it. -/
def Sys2Outcome.Registers (o : Sys2Outcome) : Prop :=
  (∃ p, o.kobjectCreateAndAdd = some p) → (∃ u, o.sysfsCreateFile = .ok u) →
    ∃ u, o.nfRegisterNetHook = .ok u

/-! ## chrdevbase -/

def CHARDEVBASE_MAJOR : ℕ := 200

/-- A registry of major numbers; the module has no data of its own. -/
def chrdevbaseInit (g : Unit) (o : Status) : Attempt Unit ℕ :=
  { call (enter g) CHARDEVBASE_MAJOR o with ret := 0 }

def chrdevbaseExit (g : Unit) : Unit × List (Event ℕ) :=
  (g, [.release CHARDEVBASE_MAJOR])

def chrdevbase : Driver Unit Status ℕ where
  fresh := ()
  init := chrdevbaseInit
  exit := chrdevbaseExit
  holdings _ := [CHARDEVBASE_MAJOR]

variable {ο : Type*} {self : ο}

theorem mymoduleInit_of_error {g : Sys2Data} {o : Sys2Outcome} {p : ℕ} {e : Errno}
    (hkobj : o.kobjectCreateAndAdd = some p) (hfile : o.sysfsCreateFile = .error e) :
    mymoduleInit g o = ⟨{ g with mymoduleKobj := .addr p },
      acquires [.kobj (.addr p)] ++ releases [.kobj (.addr p)], e⟩ := by
  have he : (e : ℤ) ≠ 0 := Int.ne_of_lt e.2
  simp [mymoduleInit, hkobj, hfile, create, call, enter, Attempt.emit, Ptr.ofNullable, acquires,
    releases, he]

theorem mymoduleInit_of_ok {g : Sys2Data} {o : Sys2Outcome} {p : ℕ} {u : Unit}
    (hkobj : o.kobjectCreateAndAdd = some p) (hfile : o.sysfsCreateFile = .ok u) :
    mymoduleInit g o = registerNetHooks ⟨{ g with mymoduleKobj := .addr p },
      acquires [.kobj (.addr p), .sysfsFile (.addr p)], 0⟩ o := by
  simp [mymoduleInit, registerNetHooks, hkobj, hfile, create, call, enter, Attempt.emit,
    Ptr.ofNullable, acquires]

theorem soundLoad_registerNetHooks_iff {l : Ledger Sys2Resource ο} {a : Sys2Init}
    {o : Sys2Outcome}
    (ha : a.events = acquires [.kobj a.data.mymoduleKobj, .sysfsFile a.data.mymoduleKobj])
    (hl : Holds self l []) (hg : granted self l (registerNetHooks a o).events = true) :
    sys2.SoundLoad self l (registerNetHooks a o) ↔ ∃ u, o.nfRegisterNetHook = .ok u := by
  cases hhook : o.nfRegisterNetHook with
  | error e =>
      simp only [registerNetHooks, hhook, call] at hg ⊢
      rw [Driver.soundLoad_acquires_iff (a := { a with ret := 0 }) rfl ha hl hg]
      apply iff_of_false
      · intro h
        have hhook := (h .netHook).2 (by simp [sys2])
        simp at hhook
      · simp
  | ok u =>
      simp only [registerNetHooks, hhook, call] at hg ⊢
      have hes : (a.emit (.acquire .netHook)).events = acquires (sys2.holdings a.data) := by
        simp [Attempt.emit, ha, acquires, sys2]
      apply iff_of_true
      · exact (Driver.soundLoad_acquires_iff (a := { a.emit (.acquire .netHook) with ret := 0 })
          rfl hes hl hg).2 fun _ => Iff.rfl
      · simp

theorem soundLoad_mymoduleInit_iff {l : Ledger Sys2Resource ο} {g : Sys2Data} {o : Sys2Outcome}
    (hl : Holds self l []) (hg : granted self l (mymoduleInit g o).events = true) :
    sys2.SoundLoad self l (mymoduleInit g o) ↔ o.Registers := by
  cases hkobj : o.kobjectCreateAndAdd with
  | none =>
      have hinit : mymoduleInit g o = ⟨{ g with mymoduleKobj := .null }, [], -enomem⟩ := by
        unfold mymoduleInit
        rw [hkobj]
        rfl
      rw [hinit] at hg ⊢
      apply iff_of_true
      · exact Driver.soundLoad_of_aborted ⟨(by decide : -enomem < 0), [], rfl⟩ hl hg
      · simp [Sys2Outcome.Registers, hkobj]
  | some p =>
      cases hfile : o.sysfsCreateFile with
      | error e =>
          rw [mymoduleInit_of_error hkobj hfile] at hg ⊢
          apply iff_of_true
          · exact Driver.soundLoad_of_aborted ⟨e.2, [.kobj (.addr p)], rfl⟩ hl hg
          · simp [Sys2Outcome.Registers, hfile]
      | ok u =>
          rw [mymoduleInit_of_ok hkobj hfile] at hg ⊢
          rw [soundLoad_registerNetHooks_iff rfl hl hg]
          exact ⟨fun h _ _ => h, fun h => h ⟨p, hkobj⟩ ⟨u, hfile⟩⟩

theorem soundUnload_mymoduleExit {l : Ledger Sys2Resource ο} {g : Sys2Data}
    (hl : Holds self l (sys2.holdings g)) : sys2.SoundUnload self l g := by
  apply Driver.soundUnload_of_perm [] (sys2.holdings g).reverse rfl (by simp) _ _ hl
  · exact List.reverse_perm _
  · simp [sys2]

theorem soundLoad_chrdevbaseInit_iff {l : Ledger ℕ ο} {g : Unit} {o : Status}
    (hl : Holds self l []) (hg : granted self l (chrdevbaseInit g o).events = true) :
    chrdevbase.SoundLoad self l (chrdevbaseInit g o) ↔ ∃ u, o = .ok u := by
  cases o with
  | error e =>
      apply iff_of_false
      · have hes : (chrdevbaseInit g (.error e)).events = acquires [] := rfl
        rw [Driver.soundLoad_acquires_iff rfl hes hl hg]
        intro h
        have hmajor := (h CHARDEVBASE_MAJOR).2 (by simp [chrdevbase])
        simp at hmajor
      · simp
  | ok u =>
      apply iff_of_true
      · have hes : (chrdevbaseInit g (.ok u)).events = acquires [CHARDEVBASE_MAJOR] := rfl
        exact (Driver.soundLoad_acquires_iff rfl hes hl hg).2 fun _ => Iff.rfl
      · exact ⟨u, rfl⟩

theorem soundUnload_chrdevbaseExit {l : Ledger ℕ ο} {g : Unit}
    (hl : Holds self l (chrdevbase.holdings g)) : chrdevbase.SoundUnload self l g :=
  Driver.soundUnload_of_perm [] [CHARDEVBASE_MAJOR] rfl (by simp) (List.Perm.refl _) (by simp) hl

variable [DecidableEq ο]

/-- A run removes what its own init obtained and nothing else exactly when no load of sys2 is
refused its hook and no load of chrdevbase its major number. -/
theorem own_registrations_iff :
    (∀ (as : List (Action Sys2Outcome Sys2Resource ο)) (w : World Sys2Data Sys2Resource ο),
      exec (sys2.step self) sys2.start as = some w →
        (Meets (sys2.step self) (sys2.Courteous self) sys2.start as ↔
          Meets (sys2.step self) (fun _ x => x.Allowed Sys2Outcome.Registers True)
            sys2.start as)) ∧
    ∀ (as : List (Action Status ℕ ο)) (w : World Unit ℕ ο),
      exec (chrdevbase.step self) chrdevbase.start as = some w →
        (Meets (chrdevbase.step self) (chrdevbase.Courteous self) chrdevbase.start as ↔
          Meets (chrdevbase.step self) (fun _ x => x.Allowed (fun o => ∃ u, o = .ok u) True)
            chrdevbase.start as) := by
  rw [Driver.courteous_eq_sound, Driver.courteous_eq_sound]
  constructor
  · intro as w h
    exact Driver.meets_sound_iff (fun _ => True)
      (fun _ _ _ hl hg => soundLoad_mymoduleInit_iff hl hg) (fun _ _ _ _ _ _ _ => trivial)
      (fun _ _ _ hl => iff_true_intro (soundUnload_mymoduleExit hl)) h
  · intro as w h
    exact Driver.meets_sound_iff (fun _ => True)
      (fun _ _ _ hl hg => soundLoad_chrdevbaseInit_iff hl hg) (fun _ _ _ _ _ _ _ => trivial)
      (fun _ _ _ hl => iff_true_intro (soundUnload_chrdevbaseExit hl)) h

def sys2LoadedTwice : List (Action Sys2Outcome Sys2Resource Bool) :=
  [.load false ⟨some 1, .error ⟨-17, by decide⟩, .ok ()⟩, .load true ⟨some 1, .ok (), .ok ()⟩,
   .unload]

def chrdevbaseBesideOther : List (Action Status ℕ Bool) :=
  [.register false 10, .load false (.ok ()), .unload]

theorem own_registrations_kept :
    (∃ w, exec (sys2.step true) sys2.start sys2LoadedTwice = some w ∧
      Meets (sys2.step true) (sys2.Courteous true) sys2.start sys2LoadedTwice) ∧
    ∃ w, exec (chrdevbase.step true) chrdevbase.start chrdevbaseBesideOther = some w ∧
      Meets (chrdevbase.step true) (chrdevbase.Courteous true) chrdevbase.start
        chrdevbaseBesideOther := by
  obtain ⟨w, hw, -⟩ : ∃ w, exec (sys2.step true) sys2.start sys2LoadedTwice = some w ∧
      (!w.loaded) = true := exists_of_exec_any _ _ _ (by decide +kernel)
  obtain ⟨v, hv, -⟩ : ∃ v, exec (chrdevbase.step true) chrdevbase.start chrdevbaseBesideOther =
      some v ∧ (!v.loaded) = true := exists_of_exec_any _ _ _ (by decide +kernel)
  refine ⟨⟨w, hw, (own_registrations_iff.1 sys2LoadedTwice w hw).2 ?_⟩, v, hv,
    (own_registrations_iff.2 chrdevbaseBesideOther v hv).2 ?_⟩
  · refine ⟨fun _ hfile => ?_, fun _ _ => ⟨fun _ _ => ⟨(), rfl⟩, fun _ _ =>
      ⟨trivial, fun _ _ => trivial⟩⟩⟩
    obtain ⟨u, hu⟩ := hfile
    contradiction
  · exact ⟨trivial, fun _ _ => ⟨⟨(), rfl⟩, fun _ _ => ⟨trivial, fun _ _ => trivial⟩⟩⟩

/-- Major 200 belongs to another driver, the load of chrdevbase is refused it and returns 0,
and the unload takes it away from its owner. -/
def refusedMajor : List (Action Status ℕ Bool) :=
  [.register false CHARDEVBASE_MAJOR, .load false (.error ebusy), .unload]

theorem own_registrations_refused :
    (chrdevbaseInit () (.error ebusy)).ret = 0 ∧
    (∃ v, exec (chrdevbase.step true) chrdevbase.start (refusedMajor.take 2) = some v ∧
      v.ledger CHARDEVBASE_MAJOR = some false ∧
      ∃ w, chrdevbase.step true v .unload = some w ∧ w.ledger CHARDEVBASE_MAJOR = none) ∧
    ¬ Meets (chrdevbase.step true) (chrdevbase.Courteous true) chrdevbase.start refusedMajor ∧
    (mymoduleInit sys2.fresh ⟨some 1, .ok (), .error ⟨-12, by decide⟩⟩).ret = 0 ∧
    ¬ Meets (sys2.step true) (sys2.Courteous true) (sys2.start : World _ _ Bool)
      [.load false ⟨some 1, .ok (), .error ⟨-12, by decide⟩⟩] := by
  obtain ⟨v, hv, hc⟩ : ∃ v, exec (chrdevbase.step true) chrdevbase.start (refusedMajor.take 2) =
      some v ∧ (v.loaded && v.ledger CHARDEVBASE_MAJOR == some false) = true :=
    exists_of_exec_any _ _ _ (by decide +kernel)
  rw [Bool.and_eq_true, beq_iff_eq] at hc
  refine ⟨rfl, ⟨v, hv, hc.2, _, if_pos hc.1, ?_⟩, fun hmeets => ?_, rfl, fun hmeets => ?_⟩
  · simp [chrdevbase, chrdevbaseExit, perform, Event.perform]
  · rcases (hmeets.2 _ rfl).1.1.2 with ⟨-, hall⟩ | ⟨hneg, -⟩
    · have hmajor := (hall CHARDEVBASE_MAJOR).2 (by simp [chrdevbase])
      simp [Driver.attempt, chrdevbase, chrdevbaseInit, call, enter, perform] at hmajor
    · exact absurd hneg (by decide)
  · have hhook := (soundLoad_mymoduleInit_iff (fun _ => by simp [sys2, Driver.start])
      (by decide)).1 hmeets.1.1
    obtain ⟨u, hu⟩ := hhook ⟨1, rfl⟩ ⟨(), rfl⟩
    contradiction

end OwnRegistrations
