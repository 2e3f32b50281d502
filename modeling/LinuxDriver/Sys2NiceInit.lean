import LinuxDriver.Sys2Setters

/-!
# The nice commands and the init process

The loops of `set_all_task_nice` and `set_user_nice_by_uid` are meant to skip the init process,
whose pid is 1. The pid that they skip is 0.
-/

open CString

namespace Sys2

/-- The value that `setnice` has for a task that it selects. -/
def setniceAsks (param : List UInt8) (task : Task) : Option ℤ :=
  (scanD param).bind fun nice =>
    if (-20 ≤ nice ∧ nice ≤ 19) ∧ task.pid ≠ 0 then some nice else none

def setniceuserAsks (makeKuid : UInt32 → UInt32) (param : List UInt8) (task : Task) : Option ℤ :=
  (scanDD param).bind fun (uid, nice) =>
    if kuidOf makeKuid uid ≠ invalidUid ∧ (-20 ≤ nice ∧ nice ≤ 19) ∧ task.pid ≠ 0 ∧
      task.uid = kuidOf makeKuid uid then some nice else none

/-- The init process keeps its nice value, every other listed task that is selected gets the new
one. -/
structure SparesInit (asks : Task → Option ℤ) (sys sys' : System) : Prop where
  init : ∀ t ∈ sys.processes, (sys.task t).pid = 1 → (sys'.task t).nice = (sys.task t).nice
  others : ∀ t ∈ sys.processes, (sys.task t).pid ≠ 1 → ∀ nice, asks (sys.task t) = some nice →
    (sys'.task t).nice = nice

/-- The init process is not selected, or has the new value already. -/
def InitSettled (asks : Task → Option ℤ) (sys : System) : Prop :=
  ∀ t ∈ sys.processes, (sys.task t).pid = 1 → ∀ nice, asks (sys.task t) = some nice →
    (sys.task t).nice = nice

section

variable {sys : System} {t : ℕ}

theorem nice_reniced {target : ℕ → Task → Prop} [∀ t task, Decidable (target t task)] {nice : ℤ} :
    ((sys.reniced target nice).task t).nice =
      if target t (sys.task t) then nice else (sys.task t).nice :=
  apply_ite Task.nice ..

theorem nice_setAllTaskNice (param : List UInt8) (ht : t ∈ sys.processes) :
    ((setAllTaskNice param sys).task t).nice =
      (setniceAsks param (sys.task t)).getD (sys.task t).nice := by
  rw [setAllTaskNice_eq id, System.requested, setniceAsks]
  cases scanD param with
  | none => rfl
  | some nice =>
      rw [Option.bind_eq_bind, Option.bind_some, Option.bind_some]
      by_cases hnice : -20 ≤ nice ∧ nice ≤ 19
      · rw [dif_pos hnice, System.fulfil, Option.elim_some, System.apply, nice_reniced]
        simp only [ht, hnice, true_and]
        split <;> rfl
      · rw [dif_neg hnice, if_neg fun h => hnice h.1]
        rfl

theorem nice_setUserNiceByUid (makeKuid : UInt32 → UInt32) (param : List UInt8)
    (ht : t ∈ sys.processes) : ((setUserNiceByUid makeKuid param sys).task t).nice =
      (setniceuserAsks makeKuid param (sys.task t)).getD (sys.task t).nice := by
  rw [setUserNiceByUid_eq, System.requested, setniceuserAsks]
  cases scanDD param with
  | none => rfl
  | some scanned =>
      obtain ⟨uid, nice⟩ := scanned
      rw [Option.bind_eq_bind, Option.bind_some, Option.bind_some]
      by_cases hinvalid : kuidOf makeKuid uid = invalidUid
      · simp only [hinvalid, ne_eq, not_true_eq_false, false_and, if_true, if_false]
        rfl
      · by_cases hnice : -20 ≤ nice ∧ nice ≤ 19
        · simp only [if_neg hinvalid]
          rw [dif_pos hnice, System.fulfil, Option.elim_some, System.apply, nice_reniced]
          simp only [ht, hnice, hinvalid, ne_eq, not_false_eq_true, true_and]
          split <;> rfl
        · simp only [if_neg hinvalid, dif_neg hnice]
          rw [if_neg fun h => hnice h.2.1]
          rfl

theorem sparesInit_iff {asks : Task → Option ℤ} {sys' : System} (h : ∀ t ∈ sys.processes,
    (sys'.task t).nice = (asks (sys.task t)).getD (sys.task t).nice) :
    SparesInit asks sys sys' ↔ InitSettled asks sys := by
  constructor
  · intro hspares t ht hpid nice hnice
    have hkept := hspares.init t ht hpid
    rw [h t ht, hnice] at hkept
    exact hkept.symm
  · intro hsettled
    constructor
    · intro t ht hpid
      rw [h t ht]
      cases hasks : asks (sys.task t) with
      | none => rfl
      | some nice => exact (hsettled t ht hpid nice hasks).symm
    · intro t ht _ nice hnice
      rw [h t ht, hnice]
      rfl

end

theorem nice_commands_spare_init_iff (makeKuid : UInt32 → UInt32) (param : List UInt8)
    (sys : System) :
    (SparesInit (setniceAsks param) sys (setAllTaskNice param sys) ↔
        InitSettled (setniceAsks param) sys) ∧
      (SparesInit (setniceuserAsks makeKuid param) sys (setUserNiceByUid makeKuid param sys) ↔
        InitSettled (setniceuserAsks makeKuid param) sys) := by
  constructor
  · apply sparesInit_iff
    intro t ht
    exact nice_setAllTaskNice param ht
  · apply sparesInit_iff
    intro t ht
    exact nice_setUserNiceByUid makeKuid param ht

def initAndUser : System where
  task t := if t = 0 then ⟨1, 0, 0, none⟩ else ⟨700, 1000, 0, none⟩
  processes := [0, 1]
  device _ := ⟨[], 0, 0⟩
  deviceList := []
  pid _ := ⟨1, none⟩
  pidHash _ := none
  sock _ := ⟨0, 0, 0⟩

theorem nice_commands_renice_init :
    ((setAllTaskNice (bytes "5") initAndUser).task 0).nice = 5 ∧
      ((setUserNiceByUid id (bytes "0 5") initAndUser).task 0).nice = 5 ∧
      ¬ SparesInit (setniceAsks (bytes "5")) initAndUser (setAllTaskNice (bytes "5") initAndUser) ∧
      ¬ SparesInit (setniceuserAsks id (bytes "0 5")) initAndUser
        (setUserNiceByUid id (bytes "0 5") initAndUser) := by
  have hall : ((setAllTaskNice (bytes "5") initAndUser).task 0).nice = 5 := by decide
  have huser : ((setUserNiceByUid id (bytes "0 5") initAndUser).task 0).nice = 5 := by decide
  have hlisted : 0 ∈ initAndUser.processes := List.mem_cons_self
  refine ⟨hall, huser, ?_, ?_⟩
  · intro h
    have hkept := h.init 0 hlisted rfl
    rw [hall] at hkept
    contradiction
  · intro h
    have hkept := h.init 0 hlisted rfl
    rw [huser] at hkept
    contradiction

end Sys2
