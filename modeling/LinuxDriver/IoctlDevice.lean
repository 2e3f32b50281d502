import LinuxDriver.CharDevice

/-!
# ioctl_device: load and unload

`ioctl_device/my_device.c`. The init routine compares the result of `cdev_add` with -1 alone
and looks at neither pointer; the exit routine unregisters the class and then destroys it,
which unregisters it again.
-/

open ResourceLedger KernelCalls CharDevice Interleaving

namespace IoctlDevice

abbrev Resource := CharDevice.Resource Empty

/-- The static variables `dev`, `class` and `device`. -/
structure Statics where
  dev : DevT
  cls : Ptr
  device : Ptr

structure Outcome where
  allocChrdevRegion : Except Errno DevT
  cdevAdd : Status
  classCreate : Except Errno ℕ
  deviceCreate : Except Errno ℕ

abbrev Init := Attempt Statics Resource

def createNodes (a : Init) (o : Outcome) : Init :=
  let a := create a (fun g p => { g with cls := p }) .cls (.ofResult o.classCreate)
  let a := create a (fun g p => { g with device := p })
    (fun _ => .device a.data.cls a.data.dev) (.ofResult o.deviceCreate)
  { a with ret := 0 }

def addCdev (a : Init) (o : Outcome) : Init :=
  let a := call a .cdev o.cdevAdd
  if a.ret = -1 then { a.emit (.release (.region a.data.dev)) with ret := -1 }
  else createNodes a o

def myDriverInit (g : Statics) (o : Outcome) : Init :=
  let a := CharDevice.allocChrdevRegion (enter g) (fun g dev => { g with dev })
    o.allocChrdevRegion
  if a.ret < 0 then { a with ret := -1 } else addCdev a o

def classUnregister (cls : Ptr) : List (Event Resource) := [.release (.cls cls)]

/-- As in the kernel: nothing for an error pointer or NULL, `class_unregister` otherwise. -/
def classDestroy (cls : Ptr) : List (Event Resource) :=
  if cls.isErrOrNull then [] else classUnregister cls

def myDriverExit (g : Statics) : Statics × List (Event Resource) :=
  (g, [.release (.device g.cls g.dev)] ++ classUnregister g.cls ++ classDestroy g.cls ++
    [.release .cdev, .release (.region g.dev)])

def driver : Driver Statics Outcome Resource where
  fresh := ⟨0, .null, .null⟩
  init := myDriverInit
  exit := myDriverExit
  holdings g := [.region g.dev, .cdev, .cls g.cls, .device g.cls g.dev]

/-- A failure that the init routine sees, or no failure. -/
def Outcome.Seen (o : Outcome) : Prop :=
  (∃ e, o.allocChrdevRegion = .error e) ∨
    (∃ e, o.cdevAdd = .error e ∧ (e : ℤ) = -1) ∨
      o.cdevAdd = .ok () ∧ (∃ p, o.classCreate = .ok p) ∧ ∃ p, o.deviceCreate = .ok p

variable {ο : Type*} {self : ο} {l : Ledger Resource ο}

/-- What is acquired on the way to `return 0`. -/
def acquired (dev : DevT) (o : Outcome) : List Resource :=
  [.region dev] ++ (match o.cdevAdd with | .ok _ => [.cdev] | .error _ => []) ++
    (match o.classCreate with | .ok p => [.cls (.addr p)] | .error _ => []) ++
    match o.deviceCreate with
    | .ok _ => [.device (.ofResult o.classCreate) dev]
    | .error _ => []

theorem createNodes_cls (a : Init) (o : Outcome) :
    (createNodes a o).data.cls = .ofResult o.classCreate := by
  cases hcls : o.classCreate <;> cases hdev : o.deviceCreate <;>
    simp [createNodes, create, Ptr.ofResult, Attempt.emit, hcls, hdev]

theorem createNodes_dev (a : Init) (o : Outcome) : (createNodes a o).data.dev = a.data.dev := by
  cases hcls : o.classCreate <;> cases hdev : o.deviceCreate <;>
    simp [createNodes, create, Ptr.ofResult, Attempt.emit, hcls, hdev]

theorem createNodes_events {a : Init} {o : Outcome}
    (ha : a.events = acquires ([.region a.data.dev] ++
      match o.cdevAdd with | .ok _ => [.cdev] | .error _ => [])) :
    (createNodes a o).events = acquires (acquired a.data.dev o) := by
  cases hcls : o.classCreate <;> cases hdev : o.deviceCreate <;>
    simp [createNodes, create, acquired, Ptr.ofResult, Attempt.emit, acquires, ha, hcls, hdev]

theorem mem_acquired {dev : DevT} {o : Outcome} {r : Resource} : r ∈ acquired dev o ↔
    r = .region dev ∨ (r = .cdev ∧ o.cdevAdd = .ok ()) ∨
      (∃ p, r = .cls (.addr p) ∧ o.classCreate = .ok p) ∨
        r = .device (.ofResult o.classCreate) dev ∧ ∃ p, o.deviceCreate = .ok p := by
  cases hcdev : o.cdevAdd <;> cases hcls : o.classCreate <;> cases hdev : o.deviceCreate <;>
    simp [acquired, hcdev, hcls, hdev]

theorem acquired_eq_holdings_iff (dev : DevT) (o : Outcome) :
    (∀ r, r ∈ acquired dev o ↔ r ∈ [Resource.region dev, .cdev, .cls (.ofResult o.classCreate),
        .device (.ofResult o.classCreate) dev]) ↔
      o.cdevAdd = .ok () ∧ (∃ p, o.classCreate = .ok p) ∧ ∃ p, o.deviceCreate = .ok p := by
  constructor
  · intro h
    have hcdev := h .cdev
    have hcls := h (.cls (.ofResult o.classCreate))
    have hdev := h (.device (.ofResult o.classCreate) dev)
    simp only [mem_acquired, List.mem_cons, reduceCtorEq, true_and, true_or, or_true, false_or,
      iff_true] at hcdev hcls hdev
    refine ⟨by simpa using hcdev, ?_, by simpa using hdev⟩
    obtain ⟨p, -, hp⟩ : ∃ p, Ptr.ofResult o.classCreate = .addr p ∧ o.classCreate = .ok p := by
      simpa using hcls
    exact ⟨p, hp⟩
  · rintro ⟨hcdev, ⟨p, hcls⟩, q, hdev⟩ r
    simp [mem_acquired, hcdev, hcls, hdev, Ptr.ofResult]

theorem soundLoad_myDriverInit_iff {g : Statics} {o : Outcome} (hl : Holds self l [])
    (hg : granted self l (myDriverInit g o).events = true) :
    driver.SoundLoad self l (myDriverInit g o) ↔ o.Seen := by
  cases halloc : o.allocChrdevRegion with
  | error e =>
      have hinit : myDriverInit g o = { enter g with ret := -1 } := by
        simp only [myDriverInit, halloc, CharDevice.allocChrdevRegion, if_pos e.2]
      rw [hinit] at hg ⊢
      exact iff_of_true
        (Driver.soundLoad_of_aborted ⟨(by decide : (-1 : ℤ) < 0), [], rfl⟩ hl hg)
        (Or.inl ⟨e, halloc⟩)
  | ok dev =>
      have hinit : myDriverInit g o =
          addCdev ⟨{ g with dev := dev }, acquires [.region dev], 0⟩ o := by
        simp only [myDriverInit, halloc, CharDevice.allocChrdevRegion, Int.lt_irrefl, if_false]
        rfl
      rw [hinit] at hg ⊢
      by_cases hseen : ∃ e, o.cdevAdd = .error e ∧ (e : ℤ) = -1
      · obtain ⟨e, hcdev, he⟩ := hseen
        simp only [addCdev, hcdev, call, if_pos he] at hg ⊢
        refine iff_of_true (Driver.soundLoad_of_aborted
          ⟨(by decide : (-1 : ℤ) < 0), [.region dev], ?_⟩ hl hg) (Or.inr (Or.inl ⟨e, hcdev, he⟩))
        simp [Attempt.emit, acquires, releases]
      · -- the call succeeded or failed with an error other than -1
        have hnodes : ∃ a : Init, a.data.dev = dev ∧ a.events = acquires ([.region dev] ++
            match o.cdevAdd with | .ok _ => [.cdev] | .error _ => []) ∧
            addCdev ⟨{ g with dev := dev }, acquires [.region dev], 0⟩ o = createNodes a o := by
          cases hcdev : o.cdevAdd with
          | ok u =>
              simp only [addCdev, hcdev, call]
              exact ⟨_, rfl, rfl, if_neg (by decide)⟩
          | error e =>
              simp only [addCdev, hcdev, call]
              exact ⟨_, rfl, rfl, if_neg fun he => hseen ⟨e, hcdev, he⟩⟩
        obtain ⟨a, hdev, hes, hnodes⟩ := hnodes
        rw [hnodes] at hg ⊢
        rw [Driver.soundLoad_acquires_iff rfl (createNodes_events (by rw [hdev, hes])) hl hg]
        simp only [driver, createNodes_cls, createNodes_dev, acquired_eq_holdings_iff]
        simp [Outcome.Seen, halloc, hseen]

theorem not_soundUnload_myDriverExit {g : Statics} (hcls : ∃ p, g.cls = .addr p) :
    ¬ driver.SoundUnload self l g := by
  rintro ⟨-, hcount, -⟩
  obtain ⟨p, hp⟩ := hcls
  have htwice := hcount (.cls g.cls) (by simp [driver])
  simp [driver, myDriverExit, classDestroy, classUnregister, hp, Ptr.isErrOrNull] at htwice

theorem myDriverInit_cls {g : Statics} {o : Outcome} (hseen : o.Seen)
    (hret : (myDriverInit g o).ret = 0) : ∃ p, (myDriverInit g o).data.cls = .addr p := by
  rcases hseen with ⟨e, halloc⟩ | ⟨e, hcdev, he⟩ | ⟨hcdev, ⟨p, hcls⟩, -⟩
  · simp [myDriverInit, halloc, CharDevice.allocChrdevRegion, e.2] at hret
  · cases halloc : o.allocChrdevRegion with
    | error e' => simp [myDriverInit, halloc, CharDevice.allocChrdevRegion, e'.2] at hret
    | ok dev =>
        simp [myDriverInit, halloc, CharDevice.allocChrdevRegion, addCdev, hcdev, call, he] at hret
  · cases halloc : o.allocChrdevRegion with
    | error e' => simp [myDriverInit, halloc, CharDevice.allocChrdevRegion, e'.2] at hret
    | ok dev =>
        simp [myDriverInit, halloc, CharDevice.allocChrdevRegion, addCdev, hcdev, call,
          createNodes_cls, hcls, Ptr.ofResult]

variable [DecidableEq ο]

/-- A run keeps the ledger exactly when no load misses a failure and nothing is unloaded: every
exit after a successful init unregisters the class twice. -/
theorem ioctl_device_ledger_iff (as : List (Action Outcome Resource ο))
    (w : World Statics Resource ο) (h : exec (driver.step self) driver.start as = some w) :
    Meets (driver.step self) (driver.Sound self) driver.start as ↔
      Meets (driver.step self) (fun _ x => x.Allowed Outcome.Seen False) driver.start as :=
  Driver.meets_sound_iff (fun g => ∃ p, g.cls = .addr p)
    (fun _ _ _ hl hg => soundLoad_myDriverInit_iff hl hg)
    (fun _ _ _ hl hg hs hret => myDriverInit_cls ((soundLoad_myDriverInit_iff hl hg).1 hs) hret)
    (fun _ _ hcls _ => iff_of_false (not_soundUnload_myDriverExit hcls) id) h

def loaded : Action Outcome Resource Bool :=
  .load false ⟨.ok (mkdev 240 0), .ok (), .ok 1, .ok 2⟩

theorem ioctl_device_ledger_loaded :
    ∃ w, exec (driver.step true) driver.start [loaded] = some w ∧ w.loaded = true ∧
      Meets (driver.step true) (driver.Sound true) driver.start [loaded] := by
  obtain ⟨w, hw, hc⟩ : ∃ w, exec (driver.step true) driver.start [loaded] = some w ∧
      w.loaded = true := exists_of_exec_any _ _ _ (by decide +kernel)
  refine ⟨w, hw, hc, (ioctl_device_ledger_iff [loaded] w hw).2 ⟨?_, fun _ _ => trivial⟩⟩
  exact Or.inr (Or.inr ⟨rfl, ⟨1, rfl⟩, 2, rfl⟩)

/-- A load in which nothing fails and the unload after it; and a load in which `cdev_add` fails
with -12. -/
theorem ioctl_device_ledger_broken :
    (∃ w, exec (driver.step true) driver.start [loaded, .unload] = some w ∧
      ¬ Meets (driver.step true) (driver.Sound true) driver.start [loaded, .unload]) ∧
    ∃ o : Outcome, o.cdevAdd = .error ⟨-12, by decide⟩ ∧
      (myDriverInit driver.fresh o).ret = 0 ∧
      perform true (fun _ => none) (myDriverInit driver.fresh o).events .cdev = none := by
  refine ⟨?_, ⟨.ok (mkdev 240 0), .error ⟨-12, by decide⟩, .ok 1, .ok 2⟩, rfl, rfl, rfl⟩
  obtain ⟨w, hw, -⟩ : ∃ w, exec (driver.step true) driver.start [loaded, .unload] = some w ∧
      (!w.loaded) = true := exists_of_exec_any _ _ _ (by decide +kernel)
  obtain ⟨v, hv, -⟩ := exec_cons_eq_some.1 hw
  have hcls : (driver.step true driver.start loaded).map (fun w => w.data.cls) =
      some (.addr 1) := by decide +kernel
  rw [hv] at hcls
  refine ⟨w, hw, fun hmeets => ?_⟩
  exact not_soundUnload_myDriverExit ⟨1, Option.some.inj hcls⟩ (hmeets.2 v hv).1

end IoctlDevice
