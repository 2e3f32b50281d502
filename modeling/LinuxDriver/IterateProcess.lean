import LinuxDriver.CircularList
import Mathlib.Data.Int.Notation

/-!
# Two ways to list the processes

`traverse_init` of `iterateprocess` walks the circular list of tasks with the current task for its
head. `showtasklist` of `sys2` uses `for_each_process`, whose head is `init_task`.
-/

open CircularList

namespace TaskList

/-- The tasks of the kernel. The list has no head apart from `init_task`. -/
structure Tasks where
  next : ℕ → ℕ
  initTask : ℕ
  processes : List ℕ
  ring : Ring next initTask processes
  comm : ℕ → List UInt8
  pid : ℕ → ℤ

/-- A task that is on the list. -/
abbrev Tasks.Member (k : Tasks) := {t : ℕ // t ∈ k.initTask :: k.processes}

structure Line where
  task : ℕ
  comm : List UInt8
  pid : ℤ
  deriving DecidableEq

def Tasks.line (k : Tasks) (t : ℕ) : Line := ⟨t, k.comm t, k.pid t⟩

/-- The counter of `traverse_init` and the lines with their numbers. -/
structure Traversal where
  count : ℕ
  printed : List (ℕ × Line)
  deriving DecidableEq

def Traversal.visit (k : Tasks) (s : Traversal) (pos : ℕ) : Traversal :=
  ⟨s.count + 1, s.printed ++ [(s.count + 1, k.line pos)]⟩

def Traversal.tasks (s : Traversal) : List ℕ := s.printed.map fun line => line.2.task

def traverseInit (k : Tasks) (current : k.Member) (fuel : ℕ) : Option Traversal :=
  forEach (m := Id) k.next current (fun s pos => pure (s.visit k pos)) fuel ⟨0, []⟩

/-- The counter of `showtasklist` and its lines. -/
structure Listing where
  iTaskCount : ℕ
  printed : List Line
  deriving DecidableEq

def Listing.visit (k : Tasks) (s : Listing) (task : ℕ) : Listing :=
  ⟨s.iTaskCount + 1, s.printed ++ [k.line task]⟩

def Listing.tasks (s : Listing) : List ℕ := s.printed.map Line.task

def showtasklist (k : Tasks) (fuel : ℕ) : Option Listing :=
  forEach (m := Id) k.next k.initTask (fun s task => pure (s.visit k task)) fuel ⟨0, []⟩

/-- The traversal has every listed process once, and no other task, and its total is right. -/
structure SeesProcesses (seen : Traversal) (listed : Listing) : Prop where
  once : seen.tasks.Nodup
  same : ∀ t, t ∈ seen.tasks ↔ t ∈ listed.tasks
  total : seen.count = listed.tasks.length

section

variable {k : Tasks}

theorem tasks_foldl_traversal (l : List ℕ) (s : Traversal) :
    (l.foldl (Traversal.visit k) s).tasks = s.tasks ++ l := by
  apply foldl_seen
  intro s pos
  rw [Traversal.tasks, Traversal.visit, List.map_append]
  rfl

theorem count_foldl_traversal (l : List ℕ) (s : Traversal) :
    (l.foldl (Traversal.visit k) s).count = s.count + l.length := by
  induction l generalizing s with
  | nil => rfl
  | cons pos l ih =>
      have hvisit : (s.visit k pos).count = s.count + 1 := rfl
      rw [List.foldl_cons, ih, hvisit, List.length_cons]
      omega

theorem tasks_foldl_listing (l : List ℕ) (s : Listing) :
    (l.foldl (Listing.visit k) s).tasks = s.tasks ++ l := by
  apply foldl_seen
  intro s task
  rw [Listing.tasks, Listing.visit, List.map_append]
  rfl

theorem foldl_listing (l : List ℕ) (s : Listing) :
    l.foldl (Listing.visit k) s = ⟨s.iTaskCount + l.length, s.printed ++ l.map k.line⟩ := by
  induction l generalizing s with
  | nil =>
      rw [List.map_nil, List.append_nil]
      rfl
  | cons task l ih =>
      rw [List.foldl_cons, ih, Listing.visit, List.append_assoc, List.length_cons,
        Nat.add_comm l.length 1, Nat.add_assoc]
      rfl

/-- The list as it looks from the current task. -/
theorem traverseInit_eq (current : k.Member) :
    ∃ l, (current.1 :: l).Perm (k.initTask :: k.processes) ∧ ∀ fuel,
      k.processes.length < fuel →
        traverseInit k current fuel = some (l.foldl (Traversal.visit k) ⟨0, []⟩) := by
  obtain ⟨l, hring, hperm⟩ := k.ring.reenter current.2
  refine ⟨l, hperm, ?_⟩
  intro fuel hfuel
  rw [← length_of_cons_perm hperm] at hfuel
  exact hring.forEach_pure _ hfuel _

theorem showtasklist_eq {fuel : ℕ} (hfuel : k.processes.length < fuel) :
    showtasklist k fuel = some (k.processes.foldl (Listing.visit k) ⟨0, []⟩) :=
  k.ring.forEach_pure _ hfuel _

end

/-- Both loops end; `for_each_process` yields every task but `init_task`, and the traversal agrees
with it only when it starts at `init_task`. -/
theorem traversal_sees_processes_iff (k : Tasks) (current : k.Member) :
    ∃ seen listed, (∀ fuel, k.processes.length < fuel →
        traverseInit k current fuel = some seen ∧ showtasklist k fuel = some listed) ∧
      listed.tasks = k.processes ∧ (SeesProcesses seen listed ↔ current.1 = k.initTask) := by
  obtain ⟨l, hperm, hseen⟩ := traverseInit_eq current
  have htasks : (l.foldl (Traversal.visit k) ⟨0, []⟩).tasks = l := tasks_foldl_traversal l ⟨0, []⟩
  have hlisted : (k.processes.foldl (Listing.visit k) ⟨0, []⟩).tasks = k.processes :=
    tasks_foldl_listing k.processes ⟨0, []⟩
  have hnodup : l.Nodup := (List.nodup_cons.1 (hperm.nodup_iff.2 k.ring.nodup)).2
  refine ⟨_, _, fun fuel hfuel => ⟨hseen fuel hfuel, showtasklist_eq hfuel⟩, hlisted, ?_⟩
  rw [← k.ring.same_iff hperm]
  constructor
  · intro h t
    have hsame := h.same t
    rwa [htasks, hlisted] at hsame
  · intro hsame
    constructor
    · rw [htasks]
      exact hnodup
    · intro t
      rw [htasks, hlisted]
      exact hsame t
    · rw [count_foldl_traversal, hlisted, ← length_of_cons_perm hperm]
      exact Nat.zero_add l.length

def twoProcesses : Tasks where
  next t := (t + 1) % 3
  initTask := 0
  processes := [1, 2]
  ring := ⟨by decide, rfl, rfl, rfl⟩
  comm _ := []
  pid t := t

theorem traversal_skips_loader :
    ((traverseInit twoProcesses ⟨2, by decide⟩ 3).map Traversal.tasks = some [0, 1] ∧
      (showtasklist twoProcesses 3).map Listing.tasks = some [1, 2]) ∧
    ∃ seen listed, traverseInit twoProcesses ⟨2, by decide⟩ 3 = some seen ∧
      showtasklist twoProcesses 3 = some listed ∧ seen.count = listed.iTaskCount ∧
      ¬ SeesProcesses seen listed := by
  refine ⟨⟨rfl, rfl⟩, _, _, rfl, rfl, rfl, ?_⟩
  intro h
  have hsame := h.same 2
  exact absurd hsame (by decide)

end TaskList
