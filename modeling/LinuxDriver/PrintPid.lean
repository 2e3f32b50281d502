import LinuxDriver.IterateProcess
import Mathlib.Data.List.Count
import Mathlib.Logic.Function.Basic

/-!
# print_pid: the table of pids

`print_pid_init` looks up the `struct pid` of every task in the namespace of its caller. Each
look-up that succeeds takes a reference, and one that fails returns NULL.
-/

open CircularList TaskList

namespace PrintPid

structure Upid where
  nr : ℤ
  ns : ℕ
  deriving DecidableEq

/-- A pid has a number in each namespace down to its level. -/
structure Pid where
  count : ℕ
  level : ℕ
  numbers : List Upid
  depth : numbers.length = level + 1

def Pid.nr (p : Pid) : ℤ := (p.numbers.get ⟨p.level, by rw [p.depth]; omega⟩).nr

def Pid.get (p : Pid) : Pid := { p with count := p.count + 1 }

/-- The namespace of the task that loads the module, and what it finds under a number. -/
structure Caller where
  ns : ℕ
  level : ℕ
  findVpid : ℤ → Option ℕ

def pidVnr (w : Caller) : Option Pid → ℤ
  | none => 0
  | some p =>
      match p.numbers[w.level]? with
      | none => 0
      | some upid => if upid.ns = w.ns then upid.nr else 0

def findGetPid (w : Caller) (pids : ℕ → Pid) (nr : ℤ) : Option ℕ × (ℕ → Pid) :=
  match w.findVpid nr with
  | none => (none, pids)
  | some kpid => (some kpid, Function.update pids kpid (pids kpid).get)

structure Row where
  task : ℕ
  pid : ℤ
  comm : List UInt8
  count : ℕ
  level : ℕ
  nr : ℤ
  vnr : ℤ
  deriving DecidableEq

structure Listing where
  pids : ℕ → Pid
  count : ℕ
  rows : List Row

def Listing.tasks (s : Listing) : List ℕ := s.rows.map Row.task

/-- The body of `list_for_each`. It is an error to read the fields of `kpid` when it is NULL. -/
def visit (k : Tasks) (w : Caller) (s : Listing) (pos : ℕ) : Except Listing Listing :=
  let (kpid, pids) := findGetPid w s.pids (k.pid pos)
  let s := { s with pids, count := s.count + 1 }
  let vnr := pidVnr w (kpid.map pids)
  match kpid with
  | none => .error s
  | some kpid =>
      let p := pids kpid
      .ok { s with rows := s.rows ++
        [⟨pos, k.pid pos, k.comm pos, p.count, p.level, p.nr, vnr⟩] }

def printPidInit (k : Tasks) (w : Caller) (pids : ℕ → Pid) (fuel : ℕ) :
    Except Listing (Option Listing) :=
  forEach k.next k.initTask (visit k w) fuel ⟨pids, 0, []⟩

/-- Init comes through with a row for every task but `init_task`, and all counts are as they
were. -/
structure LeavesPids (k : Tasks) (pids : ℕ → Pid) (out : Except Listing Listing) : Prop where
  returns : ∃ s, out = .ok s
  once : ∀ s, out = .ok s → s.tasks.Nodup ∧ ∀ t, t ∈ s.tasks ↔ t ∈ k.processes
  counts : ∀ s, out = .ok s → ∀ p, (s.pids p).count = (pids p).count

section

variable {k : Tasks} {w : Caller}

theorem visit_of_visible {s : Listing} {pos kpid : ℕ} (h : w.findVpid (k.pid pos) = some kpid) :
    ∃ row, row.task = pos ∧ visit k w s pos =
      .ok ⟨Function.update s.pids kpid (s.pids kpid).get, s.count + 1, s.rows ++ [row]⟩ := by
  unfold visit findGetPid
  rw [h]
  exact ⟨_, rfl, rfl⟩

theorem visible_of_visit {s s' : Listing} {pos : ℕ} (h : visit k w s pos = .ok s') :
    ∃ kpid, w.findVpid (k.pid pos) = some kpid := by
  cases hfind : w.findVpid (k.pid pos) with
  | none =>
      unfold visit findGetPid at h
      rw [hfind] at h
      cases h
  | some kpid => exact ⟨kpid, rfl⟩

theorem count_update (pids : ℕ → Pid) (kpid p : ℕ) :
    (Function.update pids kpid (pids kpid).get p).count =
      (pids p).count + if kpid = p then 1 else 0 := by
  by_cases hp : kpid = p
  · subst hp
    rw [Function.update_self, if_pos rfl]
    rfl
  · rw [Function.update_of_ne (Ne.symm hp), if_neg hp, Nat.add_zero]

theorem visit_spec {s s' : Listing} {pos : ℕ} (h : visit k w s pos = .ok s') :
    s'.tasks = s.tasks ++ [pos] ∧ ∀ p, (s'.pids p).count =
      (s.pids p).count + if w.findVpid (k.pid pos) = some p then 1 else 0 := by
  obtain ⟨kpid, hfind⟩ := visible_of_visit h
  obtain ⟨row, hrow, hvisit⟩ := visit_of_visible (s := s) hfind
  rw [hvisit] at h
  cases h
  constructor
  · rw [Listing.tasks, List.map_append, List.map_singleton, hrow]
    rfl
  · intro p
    simp only [count_update, hfind, Option.some.injEq]

/-- A run that comes through has a row for each task and has kept every reference. -/
theorem foldlM_visit_spec {l : List ℕ} {s s' : Listing} (h : l.foldlM (visit k w) s = .ok s') :
    s'.tasks = s.tasks ++ l ∧ ∀ p, (s'.pids p).count =
      (s.pids p).count + l.countP fun t => w.findVpid (k.pid t) = some p := by
  induction l generalizing s with
  | nil =>
      cases h
      simp
  | cons t l ih =>
      obtain ⟨mid, hvisit, hrest⟩ := foldlM_cons_eq_ok.1 h
      obtain ⟨htask, hcount⟩ := visit_spec hvisit
      obtain ⟨htasks, hcounts⟩ := ih hrest
      constructor
      · rw [htasks, htask, List.append_assoc]
        rfl
      · intro p
        rw [hcounts, hcount, List.countP_cons]
        simp only [decide_eq_true_eq]
        omega

theorem foldlM_visit_visible {l : List ℕ} {s s' : Listing} (h : l.foldlM (visit k w) s = .ok s') :
    ∀ t ∈ l, ∃ kpid, w.findVpid (k.pid t) = some kpid := by
  induction l generalizing s with
  | nil => exact nofun
  | cons t l ih =>
      obtain ⟨mid, hvisit, hrest⟩ := foldlM_cons_eq_ok.1 h
      intro t' ht'
      rcases List.mem_cons.1 ht' with rfl | ht'
      · exact visible_of_visit hvisit
      · exact ih hrest t' ht'

end

/-- The table is printed without a trace exactly when there is no task to print. -/
theorem print_pid_leaves_pids_iff (k : Tasks) (w : Caller) (pids : ℕ → Pid) :
    ∃ out, (∀ fuel, k.processes.length < fuel → printPidInit k w pids fuel = some <$> out) ∧
      (LeavesPids k pids out ↔ k.processes = []) := by
  refine ⟨k.processes.foldlM (visit k w) ⟨pids, 0, []⟩,
    fun fuel hfuel => k.ring.forEach_eq _ hfuel _, ?_⟩
  constructor
  · intro h
    obtain ⟨s, hs⟩ := h.returns
    rw [List.eq_nil_iff_forall_not_mem]
    intro t ht
    obtain ⟨kpid, hfind⟩ := foldlM_visit_visible hs t ht
    have hkept : (s.pids kpid).count = (pids kpid).count +
        k.processes.countP fun t => w.findVpid (k.pid t) = some kpid :=
      (foldlM_visit_spec hs).2 kpid
    have htaken : 0 < k.processes.countP fun t => w.findVpid (k.pid t) = some kpid :=
      List.countP_pos_iff.2 ⟨t, ht, decide_eq_true hfind⟩
    rw [h.counts s hs kpid] at hkept
    omega
  · intro hnil
    rw [hnil]
    constructor
    · exact ⟨_, rfl⟩
    · intro s hs
      cases hs
      simp [hnil, Listing.tasks]
    · intro s hs p
      cases hs
      rfl

def onePid : Pid := ⟨1, 0, [⟨7, 0⟩], rfl⟩

def oneProcess : Tasks where
  next t := (t + 1) % 2
  initTask := 0
  processes := [1]
  ring := ⟨by decide, rfl, rfl⟩
  comm _ := []
  pid _ := 7

def insider : Caller := ⟨0, 0, fun nr => if nr = 7 then some 3 else none⟩

def outsider : Caller := ⟨1, 1, fun _ => none⟩

/-- The count of the pid goes from 1 to 2, and in a namespace without it NULL is dereferenced. -/
theorem print_pid_keeps_reference :
    (∃ s, printPidInit oneProcess insider (fun _ => onePid) 2 = .ok (some s) ∧
      (s.pids 3).count = 2 ∧ ¬ LeavesPids oneProcess (fun _ => onePid) (.ok s)) ∧
    ∃ s, printPidInit oneProcess outsider (fun _ => onePid) 2 = .error s ∧
      ¬ LeavesPids oneProcess (fun _ => onePid) (.error s) := by
  constructor
  · refine ⟨_, rfl, rfl, ?_⟩
    intro h
    have hkept := h.counts _ rfl 3
    exact absurd hkept (by decide)
  · refine ⟨_, rfl, ?_⟩
    intro h
    obtain ⟨s, hs⟩ := h.returns
    cases hs

end PrintPid
