import LinuxDriver.CharDevice

/-!
# newchrdevbase: load and unload

`newchrdevbase/newchrdevbase.c`. The device number is registered again when `newchrled.major`
is known and allocated otherwise; `newchrled` is the static data of the module.
-/

open ResourceLedger KernelCalls CharDevice Interleaving

namespace NewChrdevBase

abbrev Resource := CharDevice.Resource Empty

abbrev NewchrledCdev := Chrdev Unit

structure Outcome extends Registration where
  registerChrdevRegion : Status
  allocChrdevRegion : Except Errno DevT

abbrev Init := CharDevice.Init Unit Empty

def obtainDevid (newchrled : NewchrledCdev) (o : Outcome) : Init :=
  if newchrled.major ≠ 0 then
    let g := { newchrled with devid := mkdev newchrled.major.toUInt32 0 }
    call (enter g) (.region g.devid) o.registerChrdevRegion
  else allocDevid newchrled o.allocChrdevRegion

def newchardevbaseInit (newchrled : NewchrledCdev) (o : Outcome) : Init :=
  let a := obtainDevid newchrled o
  if a.ret < 0 then failDevid a
  else addCdev o.toRegistration (fun a => { a with ret := 0 }) a

def newchardevbaseExit (newchrled : NewchrledCdev) : NewchrledCdev × List (Event Resource) :=
  (newchrled,
    [.release .cdev, .release (.region newchrled.devid),
     .release (.device newchrled.cls newchrled.devid), .release (.cls newchrled.cls)])

/-- `newchrled` is zero when the module is loaded for the first time. -/
def driver : Driver NewchrledCdev Outcome Resource where
  fresh := ⟨0, .null, .null, 0, 0, ()⟩
  init := newchardevbaseInit
  exit := newchardevbaseExit
  holdings := Chrdev.registered

theorem obtainDevid_cases (g : NewchrledCdev) (o : Outcome) :
    (obtainDevid g o).ret < 0 ∧ (obtainDevid g o).events = [] ∨
    (obtainDevid g o).ret = 0 ∧
      (obtainDevid g o).events = acquires [.region (obtainDevid g o).data.devid] := by
  unfold obtainDevid
  split_ifs with hmajor
  · cases o.registerChrdevRegion with
    | ok _ => exact Or.inr ⟨rfl, rfl⟩
    | error e => exact Or.inl ⟨e.2, rfl⟩
  · rcases allocDevid_cases (μ := Empty) g o.allocChrdevRegion with ⟨-, h⟩ | ⟨-, h⟩
    · exact Or.inl h
    · exact Or.inr h

/-- Everything acquired and 0, or a negative value and everything released. -/
theorem newchardevbaseInit_cases (g : NewchrledCdev) (o : Outcome) :
    (newchardevbaseInit g o).Aborted ∨
      (newchardevbaseInit g o).ret = 0 ∧ (newchardevbaseInit g o).events =
        acquires (driver.holdings (newchardevbaseInit g o).data) := by
  unfold newchardevbaseInit
  rcases obtainDevid_cases g o with ⟨hret, hes⟩ | ⟨hret, hes⟩
  · rw [if_pos hret]
    exact Or.inl ⟨hret, [], hes⟩
  · rw [if_neg (by omega)]
    have hcont : Continues o.toRegistration _ (fun a => { a with ret := 0 }) _ :=
      continues_addCdev hes
    rcases hcont with ⟨-, habort⟩ | ⟨-, a', heq, -, -, hes'⟩
    · exact Or.inl habort
    · rw [heq]
      exact Or.inr ⟨rfl, hes'⟩

variable {ο : Type*} {self : ο}

theorem soundLoad_newchardevbaseInit {l : Ledger Resource ο} {g : NewchrledCdev} {o : Outcome}
    (hl : Holds self l []) (hg : granted self l (newchardevbaseInit g o).events = true) :
    driver.SoundLoad self l (newchardevbaseInit g o) := by
  rcases newchardevbaseInit_cases g o with habort | ⟨hret, hes⟩
  · exact Driver.soundLoad_of_aborted habort hl hg
  · exact (Driver.soundLoad_acquires_iff hret hes hl hg).2 fun _ => Iff.rfl

theorem soundUnload_newchardevbaseExit {l : Ledger Resource ο} {g : NewchrledCdev}
    (hl : Holds self l (driver.holdings g)) : driver.SoundUnload self l g := by
  refine Driver.soundUnload_of_perm []
    [.cdev, .region g.devid, .device g.cls g.devid, .cls g.cls] rfl (by simp) ?_ (by simp) hl
  exact (List.Perm.swap _ _ _).trans (.cons _ (.cons _ (.swap _ _ _)))

variable [DecidableEq ο]

/-- In every run of loads and unloads among other drivers, each init returns 0 with region,
cdev, class and device held or a negative value with nothing held, each exit releases what is
held once, and the module holds nothing whenever it is not loaded. -/
theorem newchrdevbase_ledger (as : List (Action Outcome Resource ο))
    (w : World NewchrledCdev Resource ο)
    (h : exec (driver.step self) driver.start as = some w) :
    Meets (driver.step self) (driver.Sound self) driver.start as ∧
      Holds self w.ledger (if w.loaded then driver.holdings w.data else []) := by
  obtain ⟨hsound, hsettled⟩ := Driver.sound_exec
    (fun _ _ _ hl hg => soundLoad_newchardevbaseInit hl hg)
    (fun _ _ hl => soundUnload_newchardevbaseExit hl) h
  refine ⟨hsound, ?_⟩
  unfold Driver.Settled at hsettled
  split_ifs at hsettled ⊢
  · exact hsettled.1
  · exact hsettled

/-- Loaded with a new number, unloaded, and loaded again with the number kept from before
while `device_create` fails. -/
def reloadedWithMajor : List (Action Outcome Resource Bool) :=
  [.load false ⟨⟨.ok (), .ok 1, .ok 2⟩, .ok (), .ok (mkdev 240 0)⟩, .unload,
   .register false (.region 7),
   .load true ⟨⟨.ok (), .ok 1, .error ⟨-12, by decide⟩⟩, .ok (), .error ebusy⟩]

theorem newchrdevbase_ledger_reloaded :
    ∃ w, exec (driver.step true) driver.start reloadedWithMajor = some w ∧ w.data.major = 240 ∧
      w.loaded = false ∧
      Meets (driver.step true) (driver.Sound true) driver.start reloadedWithMajor ∧
      Holds true w.ledger (if w.loaded then driver.holdings w.data else []) := by
  obtain ⟨w, hw, hc⟩ : ∃ w, exec (driver.step true) driver.start reloadedWithMajor = some w ∧
      (w.data.major == 240 && !w.loaded) = true := exists_of_exec_any _ _ _ (by decide +kernel)
  simp only [Bool.and_eq_true, beq_iff_eq, Bool.not_eq_true'] at hc
  exact ⟨w, hw, hc.1, hc.2, newchrdevbase_ledger reloadedWithMajor w hw⟩

end NewChrdevBase
