import LinuxDriver.Dtsofled

/-!
# What dtsofled holds

The unwind chain returns what was acquired, but two failures do not reach it as failures: a
missing node is found with `ret` still 0, and the results of `ioremap` are not looked at. Every
other outcome keeps the ledger, and then the exit routine does.
-/

open ResourceLedger KernelCalls CharDevice Interleaving

namespace Dtsofled

/-- The three reads one after another, as far as they decide how init goes on. -/
def Node.read (nd : Node) : Except Errno (List UInt32) :=
  match nd.status, nd.compatible with
  | .error e, _ => .error e
  | .ok _, .error e => .error e
  | .ok _, .ok _ => ofPropertyReadU32Array nd.reg sizeofRegdata

/-- The node is there when it is looked for, and no mapping fails that is tried. A load that comes
to the mappings has read at least 40 cells of `reg` past the end of `regdata`; the ledger does not
see that, the register table does. -/
def Outcome.Noticed (o : Outcome) : Prop :=
  (∃ devid, o.allocChrdevRegion = .ok devid) → o.Succeeds →
    ∃ nd, o.node = some nd ∧ ∀ regdata, nd.read = .ok regdata → ∀ m, (o.mapping regdata m).isSome

def mapped (o : Outcome) (regdata : List UInt32) (ms : List Register) : List Resource :=
  ms.filterMap fun m => (o.mapping regdata m).map fun p => .mapping m (.addr p)

theorem assign_spec (o : Outcome) (regdata : List UInt32) (a : Init) (m : Register) :
    (assign o regdata a m).events = a.events ++ acquires (mapped o regdata [m]) ∧
      (assign o regdata a m).data = { a.data with
        own := Function.update a.data.own m (.ofNullable (o.mapping regdata m)) } := by
  cases hm : o.mapping regdata m with
  | none => simp [assign, mapped, hm, create, Ptr.ofNullable, acquires]
  | some p => simp [assign, mapped, hm, create, Ptr.ofNullable, Attempt.emit, acquires]

/-- One assignment after another fills in the pointers and records the mappings made. -/
theorem foldl_assign (o : Outcome) (regdata : List UInt32) (ms : List Register) (a : Init) :
    (ms.foldl (assign o regdata) a).events = a.events ++ acquires (mapped o regdata ms) ∧
      (ms.foldl (assign o regdata) a).data = { a.data with
        own := fun m => if m ∈ ms then .ofNullable (o.mapping regdata m) else a.data.own m } := by
  induction ms generalizing a with
  | nil => simp [mapped, acquires]
  | cons m ms ih =>
      obtain ⟨hes, hdata⟩ := ih (assign o regdata a m)
      obtain ⟨hes', hdata'⟩ := assign_spec o regdata a m
      rw [List.foldl_cons, hes, hdata, hes', hdata']
      constructor
      · simp only [acquires, mapped, List.append_assoc, ← List.map_append, ← List.filterMap_append,
          List.singleton_append]
      · simp only [Chrdev.mk.injEq, true_and]
        funext m'
        by_cases hm : m' = m
        · subst m'
          simp
        · simp [hm]

theorem mapRegisters_spec (a : Init) (o : Outcome) (regdata : List UInt32) :
    (mapRegisters a o regdata).events = a.events ++ acquires (mapped o regdata registers) ∧
      (mapRegisters a o regdata).data =
        { a.data with own := fun m => .ofNullable (o.mapping regdata m) } := by
  obtain ⟨hes, hdata⟩ := foldl_assign o regdata registers a
  refine ⟨hes, hdata.trans ?_⟩
  simp only [Chrdev.mk.injEq, true_and]
  funext m
  cases m <;> simp [registers]

theorem mem_registers (m : Register) : m ∈ registers := by
  cases m <;> simp [registers]

theorem mem_mapped {o : Outcome} {regdata : List UInt32} {r : Resource} :
    r ∈ mapped o regdata registers ↔
      ∃ m p, o.mapping regdata m = some p ∧ r = .mapping m (.addr p) := by
  simp only [mapped, List.mem_filterMap, Option.map_eq_some_iff, mem_registers, true_and]
  constructor
  · rintro ⟨m, p, hp, rfl⟩
    exact ⟨m, p, hp, rfl⟩
  · rintro ⟨m, p, hp, rfl⟩
    exact ⟨m, p, hp, rfl⟩

/-- The mappings that were made are the mappings that exit relies on. -/
theorem mapped_eq_holdings_iff {o : Outcome} {regdata : List UInt32} {rs : List Resource}
    (hrs : ∀ m p, .mapping m p ∉ rs) :
    (∀ r, r ∈ rs ++ mapped o regdata registers ↔
        r ∈ rs ++ registers.map fun m => .mapping m (.ofNullable (o.mapping regdata m))) ↔
      ∀ m, (o.mapping regdata m).isSome := by
  constructor
  · intro h m
    have hm := (h (.mapping m (.ofNullable (o.mapping regdata m)))).2 (List.mem_append_right _
      (List.mem_map_of_mem (mem_registers m)))
    rcases List.mem_append.1 hm with hm | hm
    · exact absurd hm (hrs _ _)
    · obtain ⟨m', p, hp, heq⟩ := mem_mapped.1 hm
      obtain ⟨rfl, -⟩ := CharDevice.Resource.mapping.inj heq
      simp [hp]
  · intro h r
    simp only [List.mem_append, mem_mapped, List.mem_map, mem_registers, true_and]
    refine or_congr_right ⟨?_, ?_⟩
    · rintro ⟨m, p, hp, rfl⟩
      exact ⟨m, by rw [hp]; rfl⟩
    · rintro ⟨m, rfl⟩
      obtain ⟨p, hp⟩ := Option.isSome_iff_exists.1 (h m)
      exact ⟨m, p, hp, by rw [hp]; rfl⟩

variable {ο : Type*} {self : ο} {l : Ledger Resource ο} {a : Init} {o : Outcome}

theorem aborted_failFindnd (hret : a.ret < 0) (ha : a.events = acquires a.data.registered) :
    (failFindnd a).Aborted := by
  refine ⟨hret, a.data.registered, ?_⟩
  simp [failFindnd, failDevice, failClass, failCdev, failDevid, Attempt.emit, ha, releases,
    Chrdev.registered]

theorem soundLoad_readReg_iff {nd : Node} (ha : a.events = acquires a.data.registered)
    (hl : Holds self l []) (hg : granted self l (readReg a o nd).events = true) :
    driver.SoundLoad self l (readReg a o nd) ↔
      ∀ regdata, ofPropertyReadU32Array nd.reg sizeofRegdata = .ok regdata →
        ∀ m, (o.mapping regdata m).isSome := by
  cases hreg : ofPropertyReadU32Array nd.reg sizeofRegdata with
  | error e =>
      simp only [readReg, hreg] at hg ⊢
      refine iff_of_true (Driver.soundLoad_of_aborted (aborted_failFindnd e.2 ha) hl hg) ?_
      simp
  | ok regdata =>
      simp only [readReg, hreg] at hg ⊢
      obtain ⟨hes, hdata⟩ := mapRegisters_spec { a with ret := 0 } o regdata
      have hall : (mapRegisters { a with ret := 0 } o regdata).events =
          acquires (a.data.registered ++ mapped o regdata registers) := by
        rw [acquires_append, ← ha, hes]
      refine (Driver.soundLoad_acquires_iff
        (a := { mapRegisters { a with ret := 0 } o regdata with ret := 0 }) rfl hall hl hg).trans ?_
      simp only [driver, hdata, Chrdev.registered]
      rw [mapped_eq_holdings_iff (by simp)]
      simp

/-- A read that fails is an error like any other. -/
theorem soundLoad_failRs {e : Errno} (ha : a.events = acquires a.data.registered)
    (hl : Holds self l []) (hg : granted self l (failRs { a with ret := e }).events = true) :
    driver.SoundLoad self l (failRs { a with ret := e }) :=
  Driver.soundLoad_of_aborted (aborted_failFindnd e.2 ha) hl hg

theorem soundLoad_readStatus_iff {nd : Node} (ha : a.events = acquires a.data.registered)
    (hl : Holds self l []) (hg : granted self l (readStatus a o nd).events = true) :
    driver.SoundLoad self l (readStatus a o nd) ↔
      ∀ regdata, nd.read = .ok regdata → ∀ m, (o.mapping regdata m).isSome := by
  cases hstatus : nd.status with
  | error e =>
      simp only [readStatus, hstatus] at hg ⊢
      exact iff_of_true (soundLoad_failRs ha hl hg) (by simp [Node.read, hstatus])
  | ok status =>
      cases hcomp : nd.compatible with
      | error e =>
          simp only [readStatus, readCompatible, hstatus, hcomp] at hg ⊢
          exact iff_of_true (soundLoad_failRs ha hl hg) (by simp [Node.read, hstatus, hcomp])
      | ok compatible =>
          simp only [readStatus, readCompatible, hstatus, hcomp] at hg ⊢
          simp only [Node.read, hstatus, hcomp]
          exact soundLoad_readReg_iff ha hl hg

/-- Without the node everything is given back, and the 0 from before is returned. -/
theorem not_soundLoad_findNode (hret : a.ret = 0) (ha : a.events = acquires a.data.registered)
    (hl : Holds self l []) (hg : granted self l (failFindnd a).events = true) :
    ¬ driver.SoundLoad self l (failFindnd a) := by
  have hes : (failFindnd a).events =
      acquires a.data.registered ++ releases (a.data.registered : List Resource).reverse := by
    simp [failFindnd, failDevice, failClass, failCdev, failDevid, Attempt.emit, ha, releases,
      Chrdev.registered]
  exact Driver.not_soundLoad_of_unwound (r := .cdev) hret hes hl hg
    (by simp [driver, Chrdev.registered])

theorem soundLoad_findNode_iff (hret : a.ret = 0) (ha : a.events = acquires a.data.registered)
    (hl : Holds self l []) (hg : granted self l (findNode o a).events = true) :
    driver.SoundLoad self l (findNode o a) ↔ ∃ nd, o.node = some nd ∧
      ∀ regdata, nd.read = .ok regdata → ∀ m, (o.mapping regdata m).isSome := by
  cases hnode : o.node with
  | none =>
      simp only [findNode, hnode] at hg ⊢
      exact iff_of_false (not_soundLoad_findNode hret ha hl hg) (by simp)
  | some nd =>
      simp only [findNode, hnode] at hg ⊢
      rw [soundLoad_readStatus_iff ha hl hg]
      simp

theorem soundLoad_dtsofledInit_iff {g : Statics} (hl : Holds self l [])
    (hg : granted self l (dtsofledInit g o).events = true) :
    driver.SoundLoad self l (dtsofledInit g o) ↔ o.Noticed := by
  unfold dtsofledInit at hg ⊢
  rcases allocDevid_cases (μ := Register) g o.allocChrdevRegion with
    ⟨⟨e, halloc⟩, hret, hes⟩ | ⟨⟨devid, halloc⟩, hret, hes⟩
  · rw [if_pos hret] at hg ⊢
    exact iff_of_true (Driver.soundLoad_of_aborted ⟨hret, [], hes⟩ hl hg)
      (by simp [Outcome.Noticed, halloc])
  · rw [if_neg (by omega)] at hg ⊢
    have hcont : Continues o.toRegistration _ (findNode o) _ := continues_addCdev hes
    rcases hcont with ⟨hfail, habort⟩ | ⟨hsucc, a, heq, hret', -, hes'⟩
    · exact iff_of_true (Driver.soundLoad_of_aborted habort hl hg)
        fun _ hsucc => absurd hsucc hfail
    · rw [heq] at hg ⊢
      rw [soundLoad_findNode_iff hret' hes' hl hg]
      exact ⟨fun h _ _ => h, fun h => h ⟨devid, halloc⟩ hsucc⟩

theorem soundUnload_dtsofledExit {g : Statics} (hl : Holds self l (driver.holdings g)) :
    driver.SoundUnload self l g := by
  refine Driver.soundUnload_of_perm
    [.mapping .GPIO1_DR (g.own .GPIO1_DR), .mapping .GPIO1_DR (g.own .GPIO1_DR)]
    (registers.map (fun m => .mapping m (g.own m)) ++
      [.cdev, .region g.devid, .device g.cls g.devid, .cls g.cls]) ?_ ?_ ?_ ?_ hl
  · simp [driver, dtsofledExit, releases]
  · simp [registers]
  · refine List.perm_append_comm.trans (List.Perm.append_right _ ?_)
    exact (List.Perm.swap _ _ _).trans (.cons _ (.cons _ (.swap _ _ _)))
  · simp [registers]

variable [DecidableEq ο]

/-- A run keeps the ledger exactly when no load finds the node missing or fails to map a
register: then every init returns 0 with everything held or a negative value with nothing
held, and every exit releases everything once and uses `GPIO1_DR` while it is mapped. -/
theorem dtsofled_ledger_iff (as : List (Action Outcome Resource ο))
    (w : World Statics Resource ο) (h : exec (driver.step self) driver.start as = some w) :
    Meets (driver.step self) (driver.Sound self) driver.start as ↔
      Meets (driver.step self) (fun _ x => x.Allowed Outcome.Noticed True) driver.start as :=
  Driver.meets_sound_iff (fun _ => True) (fun _ _ _ hl hg => soundLoad_dtsofledInit_iff hl hg)
    (fun _ _ _ _ _ _ _ => trivial)
    (fun _ _ _ hl => iff_true_intro (soundUnload_dtsofledExit hl)) h

def allSucceed : Outcome where
  cdevAdd := .ok ()
  classCreate := .ok 1
  deviceCreate := .ok 2
  allocChrdevRegion := .ok (mkdev 240 0)
  node := some ⟨.ok [], .ok [], .ok (List.replicate 40 0)⟩
  ioremap _ _ _ := some 3

def loadedAndUnloaded : List (Action Outcome Resource Bool) := [.load false allSucceed, .unload]

theorem dtsofled_ledger_unloaded :
    ∃ w, exec (driver.step true) driver.start loadedAndUnloaded = some w ∧ w.loaded = false ∧
      Meets (driver.step true) (driver.Sound true) driver.start loadedAndUnloaded := by
  obtain ⟨w, hw, hc⟩ : ∃ w, exec (driver.step true) driver.start loadedAndUnloaded = some w ∧
      (!w.loaded) = true := exists_of_exec_any _ _ _ (by decide +kernel)
  refine ⟨w, hw, by simpa using hc, (dtsofled_ledger_iff loadedAndUnloaded w hw).2 ⟨?_, ?_⟩⟩
  · exact fun _ _ => ⟨_, rfl, fun _ _ _ => rfl⟩
  · exact fun _ _ => ⟨trivial, fun _ _ => trivial⟩

def noNode : Outcome := { allSucceed with node := none }

/-- A device tree without the node: init returns 0 and holds nothing, and the exit routine then
starts with an access to a register that is not mapped. -/
theorem dtsofled_missing_node :
    (dtsofledInit driver.fresh noNode).ret = 0 ∧
      perform true (fun _ => (none : Option Bool)) (dtsofledInit driver.fresh noNode).events =
        (fun _ => none) ∧
      ¬ Meets (driver.step true) (driver.Sound true) (driver.start : World _ _ Bool)
        [.load false noNode] ∧
      ¬ Proper true (fun _ => none) (driver.exit (dtsofledInit driver.fresh noNode).data).2 := by
  have hempty : Holds true (fun _ : Resource => (none : Option Bool)) [] := fun r => by simp
  let got : List Resource :=
    [.region (mkdev 240 0), .cdev, .cls (.addr 1), .device (.addr 1) (mkdev 240 0)]
  let given : List Resource :=
    [.device (.addr 1) (mkdev 240 0), .cls (.addr 1), .cdev, .region (mkdev 240 0)]
  have hes : (dtsofledInit driver.fresh noNode).events = acquires got ++ releases given := rfl
  refine ⟨rfl, ?_, fun hmeets => ?_, fun hproper => ?_⟩
  · rw [hes]
    exact perform_unwind (by decide)
  · exact Driver.not_soundLoad_of_unwound (r := .cdev) rfl hes hempty (by decide)
      (by simp [driver, Chrdev.registered]) hmeets.1
  · have hmapped := hproper.1
    simp [Event.Proper] at hmapped

end Dtsofled
