import LinuxDriver.KernelCalls

/-!
# Character devices

Device numbers, what a character device driver registers, and the part of the init routines of
newchrdevbase and dtsofled that is the same: cdev, class and device, with a label for each in
the chain that unwinds them.
-/

open ResourceLedger KernelCalls

namespace CharDevice

abbrev DevT := UInt32

def mkdev (ma mi : UInt32) : DevT := ma <<< 20 ||| mi

def major (dev : DevT) : UInt32 := dev >>> 20

def minor (dev : DevT) : UInt32 := dev &&& 0xfffff

/-- What a driver can register; `μ` names its register mappings. -/
inductive Resource (μ : Type*)
  | region (devid : DevT)
  | cdev
  | cls (p : Ptr)
  | device (cls : Ptr) (devid : DevT)
  | mapping (m : μ) (p : Ptr)
  deriving DecidableEq

/-- `ret = alloc_chrdev_region(&devid, ...)`; a failed call does not assign `devid`. -/
def allocChrdevRegion {γ μ : Type*} (a : Attempt γ (Resource μ)) (assign : γ → DevT → γ) :
    Except Errno DevT → Attempt γ (Resource μ)
  | .ok devid =>
      { a.emit (.acquire (.region devid)) with data := assign a.data devid, ret := 0 }
  | .error e => { a with ret := e }

/-- The device structure of a module, with what else it keeps in `own`. -/
structure Chrdev (τ : Type*) where
  devid : DevT
  cls : Ptr
  device : Ptr
  major : Int32
  minor : Int32
  own : τ

structure Registration where
  cdevAdd : Status
  classCreate : Except Errno ℕ
  deviceCreate : Except Errno ℕ

def Registration.Succeeds (o : Registration) : Prop :=
  (∃ u, o.cdevAdd = .ok u) ∧ (∃ p, o.classCreate = .ok p) ∧ ∃ p, o.deviceCreate = .ok p

abbrev Init (τ μ : Type*) := Attempt (Chrdev τ) (Resource μ)

variable {τ μ : Type*}

def Chrdev.registered (g : Chrdev τ) : List (Resource μ) :=
  [.region g.devid, .cdev, .cls g.cls, .device g.cls g.devid]

/-- `major` and `minor` of the number that `alloc_chrdev_region` assigned. -/
def allocDevid (g : Chrdev τ) (o : Except Errno DevT) : Init τ μ :=
  let a := allocChrdevRegion (enter g) (fun g devid => { g with devid }) o
  { a with data := { a.data with
      major := (major a.data.devid).toInt32, minor := (minor a.data.devid).toInt32 } }

def failDevid (a : Init τ μ) : Init τ μ := a

def failCdev (a : Init τ μ) : Init τ μ := failDevid (a.emit (.release (.region a.data.devid)))

def failClass (a : Init τ μ) : Init τ μ := failCdev (a.emit (.release .cdev))

def failDevice (a : Init τ μ) : Init τ μ := failClass (a.emit (.release (.cls a.data.cls)))

def addDevice (o : Registration) (rest : Init τ μ → Init τ μ) (a : Init τ μ) : Init τ μ :=
  let a := create a (fun g p => { g with device := p })
    (fun _ => .device a.data.cls a.data.devid) (.ofResult o.deviceCreate)
  if a.data.device.isErr then failDevice { a with ret := a.data.device.ptrErr } else rest a

def addClass (o : Registration) (rest : Init τ μ → Init τ μ) (a : Init τ μ) : Init τ μ :=
  let a := create a (fun g p => { g with cls := p }) .cls (.ofResult o.classCreate)
  if a.data.cls.isErr then failClass { a with ret := a.data.cls.ptrErr }
  else addDevice o rest a

def addCdev (o : Registration) (rest : Init τ μ → Init τ μ) (a : Init τ μ) : Init τ μ :=
  let a := call a .cdev o.cdevAdd
  if a.ret < 0 then failCdev a else addClass o rest a

/-- All three calls succeed and the routine goes on with `ret` 0, or it is aborted. -/
def Continues (o : Registration) (own : τ) (rest : Init τ μ → Init τ μ) (a : Init τ μ) : Prop :=
  ¬ o.Succeeds ∧ a.Aborted ∨
    o.Succeeds ∧ ∃ a' : Init τ μ, a = rest a' ∧ a'.ret = 0 ∧ a'.data.own = own ∧
      a'.events = acquires a'.data.registered

variable {o : Registration} {rest : Init τ μ → Init τ μ} {a : Init τ μ}

theorem continues_addDevice (hcdev : ∃ u, o.cdevAdd = .ok u) (hcls : ∃ p, o.classCreate = .ok p)
    (hret : a.ret = 0) (ha : a.events = acquires [.region a.data.devid, .cdev, .cls a.data.cls]) :
    Continues o a.data.own rest (addDevice o rest a) := by
  cases hdev : o.deviceCreate with
  | error e =>
      simp only [addDevice, hdev, Ptr.ofResult, create, Ptr.isErr, Ptr.ptrErr, if_pos]
      refine Or.inl ⟨by simp [Registration.Succeeds, hdev], e.2,
        [.region a.data.devid, .cdev, .cls a.data.cls], ?_⟩
      simp [failDevice, failClass, failCdev, failDevid, Attempt.emit, ha, releases]
  | ok p =>
      simp only [addDevice, hdev, Ptr.ofResult, create, Ptr.isErr, Bool.false_eq_true, if_false]
      refine Or.inr ⟨⟨hcdev, hcls, p, hdev⟩, _, rfl, hret, rfl, ?_⟩
      simp [Attempt.emit, ha, acquires, Chrdev.registered]

theorem continues_addClass (hcdev : ∃ u, o.cdevAdd = .ok u) (hret : a.ret = 0)
    (ha : a.events = acquires [.region a.data.devid, .cdev]) :
    Continues o a.data.own rest (addClass o rest a) := by
  cases hcls : o.classCreate with
  | error e =>
      simp only [addClass, hcls, Ptr.ofResult, create, Ptr.isErr, Ptr.ptrErr, if_pos]
      refine Or.inl ⟨by simp [Registration.Succeeds, hcls], e.2,
        [.region a.data.devid, .cdev], ?_⟩
      simp [failClass, failCdev, failDevid, Attempt.emit, ha, releases]
  | ok p =>
      simp only [addClass, hcls, Ptr.ofResult, create, Ptr.isErr, Bool.false_eq_true, if_false]
      refine continues_addDevice (a := { a.emit (.acquire (.cls (.addr p))) with
        data := { a.data with cls := .addr p } }) hcdev ⟨p, hcls⟩ hret ?_
      simp [Attempt.emit, ha, acquires]

/-- From the device number on, in one statement. -/
theorem continues_addCdev (ha : a.events = acquires [.region a.data.devid]) :
    Continues o a.data.own rest (addCdev o rest a) := by
  cases hcdev : o.cdevAdd with
  | error e =>
      simp only [addCdev, hcdev, call, if_pos e.2]
      refine Or.inl ⟨by simp [Registration.Succeeds, hcdev], e.2, [.region a.data.devid], ?_⟩
      simp [failCdev, failDevid, Attempt.emit, ha, releases]
  | ok u =>
      simp only [addCdev, hcdev, call, Int.lt_irrefl, if_false]
      refine continues_addClass (a := { a.emit (.acquire .cdev) with ret := 0 }) ⟨u, hcdev⟩ rfl ?_
      simp [Attempt.emit, ha, acquires]

theorem allocDevid_cases (g : Chrdev τ) (o : Except Errno DevT) :
    (∃ e, o = .error e) ∧ (allocDevid g o : Init τ μ).ret < 0 ∧
        (allocDevid g o : Init τ μ).events = [] ∨
      (∃ devid, o = .ok devid) ∧ (allocDevid g o : Init τ μ).ret = 0 ∧
        (allocDevid g o : Init τ μ).events =
          acquires [.region (allocDevid g o : Init τ μ).data.devid] := by
  cases o with
  | error e => exact Or.inl ⟨⟨e, rfl⟩, e.2, rfl⟩
  | ok devid => exact Or.inr ⟨⟨devid, rfl⟩, rfl, rfl⟩

/-! ## What else a module keeps -/

section

variable {τ' : Type*} {f : τ → τ'} {rest' : Init τ' μ → Init τ' μ}

/-- The same run of an init routine, seen with other additional data. -/
def mapOwn (f : τ → τ') (a : Init τ μ) : Init τ' μ :=
  ⟨⟨a.data.devid, a.data.cls, a.data.device, a.data.major, a.data.minor, f a.data.own⟩,
    a.events, a.ret⟩

theorem mapOwn_addDevice (hrest : ∀ a, mapOwn f (rest a) = rest' (mapOwn f a)) :
    mapOwn f (addDevice o rest a) = addDevice o rest' (mapOwn f a) := by
  unfold addDevice
  cases o.deviceCreate with
  | error e => rfl
  | ok p => exact hrest _

theorem mapOwn_addClass (hrest : ∀ a, mapOwn f (rest a) = rest' (mapOwn f a)) :
    mapOwn f (addClass o rest a) = addClass o rest' (mapOwn f a) := by
  unfold addClass
  cases o.classCreate with
  | error e => rfl
  | ok p => exact mapOwn_addDevice hrest

/-- The registrations do not look at the additional data. -/
theorem mapOwn_addCdev (hrest : ∀ a, mapOwn f (rest a) = rest' (mapOwn f a)) :
    mapOwn f (addCdev o rest a) = addCdev o rest' (mapOwn f a) := by
  cases hcdev : o.cdevAdd with
  | error e =>
      simp only [addCdev, hcdev, call, if_pos e.2]
      rfl
  | ok u =>
      simp only [addCdev, hcdev, call, Int.lt_irrefl, if_false]
      exact mapOwn_addClass hrest

end

/-- An aborted init leaves the additional data as they were. -/
theorem own_addCdev_of_not_succeeds (h : ¬ o.Succeeds) :
    (addCdev o rest a).data.own = a.data.own := by
  cases hcdev : o.cdevAdd with
  | error e =>
      simp only [addCdev, hcdev, call, if_pos e.2]
      rfl
  | ok u =>
      simp only [addCdev, hcdev, call, Int.lt_irrefl, if_false, addClass]
      cases hcls : o.classCreate with
      | error e => rfl
      | ok p =>
          simp only [Ptr.ofResult, create, Ptr.isErr, Bool.false_eq_true, if_false, addDevice]
          cases hdev : o.deviceCreate with
          | error e => rfl
          | ok q => exact absurd ⟨⟨u, hcdev⟩, ⟨p, hcls⟩, q, hdev⟩ h

end CharDevice
