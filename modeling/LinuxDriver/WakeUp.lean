import LinuxDriver.Interleaving
import Mathlib.Tactic.SplitIfs

/-!
# The wait queue examples and the wake-up that comes too early

`__wake_up`, `__wake_up_sync` and `__wake_up_sync_key` have the same init, which puts an entry on
the queue `head`, starts a thread and goes to sleep with a timeout. The thread wakes the queue with
the function that gives the example its name. Init sets its sleeping state only after it has started
the thread, and it has no condition to test.
-/

open Interleaving

namespace WakeUp

inductive Example
  | wakeUp
  | wakeUpSync
  | wakeUpSyncKey
  deriving DecidableEq

def Example.printsAgain : Example → Bool
  | .wakeUp => false
  | .wakeUpSync => true
  | .wakeUpSyncKey => true

inductive TaskState
  | running
  | uninterruptible
  deriving DecidableEq

/-- The two tasks. An entry on the queue is known by the task whose frame it lies in, which is the
task that it wakes. -/
inductive Task
  | init
  | thread
  deriving DecidableEq

inductive InitPc
  | kthreadCreate
  | initWaitqueueHead
  | initWaitqueueEntry
  | addWaitQueue
  | oldThread
  | wakeUpProcess
  | setState
  | schedule
  | asleep
  | returned
  deriving DecidableEq

inductive ThreadPc
  | absent
  | printState
  | wakeUp
  | printAgain
  | done
  deriving DecidableEq

structure State where
  init : InitPc
  thread : ThreadPc
  initState : TaskState
  threadState : TaskState
  data : Option Task
  head : List Task
  oldThread : Option Task
  printed : List TaskState
  deriving DecidableEq

inductive Action
  | init
  | thread
  | timeout
  deriving DecidableEq

namespace State

def start : State where
  init := .kthreadCreate
  thread := .absent
  initState := .running
  threadState := .running
  data := none
  head := []
  oldThread := none
  printed := []

def taskState (s : State) : Task → TaskState
  | .init => s.initState
  | .thread => s.threadState

/-- A task that runs already is not affected. -/
def makeRunnable (s : State) : Task → State
  | .init => { s with initState := .running }
  | .thread => { s with threadState := .running }

/-- The walk over the queue with the default wake function, which takes no entry off. -/
def wakeQueue (s : State) : State := s.head.foldl makeRunnable s

def initStep (s : State) : Option State :=
  match s.init with
  | .kthreadCreate =>
      some { s with
        thread := .printState, threadState := .uninterruptible, init := .initWaitqueueHead }
  | .initWaitqueueHead => some { s with head := [], init := .initWaitqueueEntry }
  | .initWaitqueueEntry => some { s with data := some .init, init := .addWaitQueue }
  | .addWaitQueue => some { s with head := s.data.toList ++ s.head, init := .oldThread }
  | .oldThread => some { s with oldThread := some .init, init := .wakeUpProcess }
  | .wakeUpProcess => some { s.makeRunnable .thread with init := .setState }
  | .setState => some { s with initState := .uninterruptible, init := .schedule }
  | .schedule =>
      if s.initState = .running then some { s with init := .returned }
      else some { s with init := .asleep }
  | .asleep => if s.initState = .running then some { s with init := .returned } else none
  | .returned => none

/-- The state of `old_thread` is printed; there is no step through a pointer that is NULL. -/
def printState (s : State) (next : ThreadPc) : Option State :=
  s.oldThread.map fun t => { s with printed := s.printed ++ [s.taskState t], thread := next }

def threadStep (v : Example) (s : State) : Option State :=
  if s.threadState = .running then
    match s.thread with
    | .absent => none
    | .printState => s.printState .wakeUp
    | .wakeUp => some { s.wakeQueue with thread := if v.printsAgain then .printAgain else .done }
    | .printAgain => s.printState .done
    | .done => none
  else none

end State

def step (v : Example) (s : State) : Action → Option State
  | .init => s.initStep
  | .thread => s.threadStep v
  | .timeout => if s.init = .asleep then some (s.makeRunnable .init) else none

def InitPc.rank : InitPc → ℕ
  | .kthreadCreate => 0
  | .initWaitqueueHead => 1
  | .initWaitqueueEntry => 2
  | .addWaitQueue => 3
  | .oldThread => 4
  | .wakeUpProcess => 5
  | .setState => 6
  | .schedule => 7
  | .asleep => 8
  | .returned => 9

def ThreadPc.Issued (pc : ThreadPc) : Prop := pc = .printAgain ∨ pc = .done

/-- The wake-up was issued and init sleeps with nothing but the timeout to come. -/
def State.Lost (s : State) : Prop :=
  s.thread.Issued ∧ s.init = .asleep ∧ s.initState = .uninterruptible

def NeverLost (v : Example) (as : List Action) : Prop :=
  ∀ pre post u, as = pre ++ post → exec (step v) .start pre = some u → ¬ u.Lost

/-- The wake-up is issued only when init has set its sleeping state. -/
def InTime (s : State) (a : Action) : Prop :=
  a = .thread → s.thread = .wakeUp → InitPc.schedule.rank ≤ s.init.rank

/-! ## What a step does -/

section

variable {v : Example} {s s' : State}

structure InitStepped (s s' : State) : Prop where
  enabled : s.init.rank ≤ 8
  before : s.init.rank ≤ 6 → s'.init.rank = s.init.rank + 1
  after : 7 ≤ s.init.rank → s'.init.rank = if s.initState = .running then 9 else 8
  thread : s'.thread = if s.init.rank = 0 then .printState else s.thread
  initState : s'.initState = if s.init.rank = 6 then .uninterruptible else s.initState
  data : s'.data = if s.init.rank = 2 then some .init else s.data
  head : s'.head = if s.init.rank = 1 then [] else
    if s.init.rank = 3 then s.data.toList ++ s.head else s.head

theorem initStep_spec (h : s.initStep = some s') : InitStepped s s' := by
  unfold State.initStep at h
  cases hpc : s.init <;> simp only [hpc] at h
  case schedule =>
    by_cases hrun : s.initState = .running
    · rw [if_pos hrun] at h
      cases h
      constructor <;> simp [hpc, hrun, InitPc.rank]
    · rw [if_neg hrun] at h
      cases h
      constructor <;> simp [hpc, hrun, InitPc.rank]
  case asleep =>
    by_cases hrun : s.initState = .running
    · rw [if_pos hrun] at h
      cases h
      constructor <;> simp [hpc, hrun, InitPc.rank]
    · rw [if_neg hrun] at h
      cases h
  case returned => cases h
  all_goals
    cases h
    constructor <;> simp [hpc, InitPc.rank, State.makeRunnable]

theorem InitStepped.rank (h : InitStepped s s') : s'.init.rank = s.init.rank + 1 ∨
    7 ≤ s.init.rank ∧ s.init.rank ≤ 8 ∧ 8 ≤ s'.init.rank := by
  have henabled := h.enabled
  by_cases h6 : s.init.rank ≤ 6
  · exact Or.inl (h.before h6)
  · have hafter := h.after (by omega)
    split at hafter <;> omega

theorem foldl_makeRunnable (l : List Task) (s : State) :
    l.foldl State.makeRunnable s =
      { s with
        initState := if .init ∈ l then .running else s.initState
        threadState := if .thread ∈ l then .running else s.threadState } := by
  induction l generalizing s with
  | nil => rfl
  | cons t l ih =>
      rw [List.foldl_cons, ih]
      cases t <;> simp [State.makeRunnable]

/-- A step of the thread is no step of init, and only the wake-up makes init runnable. -/
structure ThreadStepped (s s' : State) : Prop where
  init : s'.init = s.init
  data : s'.data = s.data
  head : s'.head = s.head
  created : s.thread ≠ .absent
  initState : s'.initState =
    if s.thread = .wakeUp ∧ .init ∈ s.head then .running else s.initState
  issued : s'.thread.Issued ↔ s.thread = .wakeUp ∨ s.thread.Issued

theorem threadStep_spec (h : s.threadStep v = some s') : ThreadStepped s s' := by
  unfold State.threadStep at h
  rw [Option.ite_none_right_eq_some] at h
  obtain ⟨-, h⟩ := h
  cases hpc : s.thread <;> simp only [hpc] at h
  case absent => cases h
  case done => cases h
  case wakeUp =>
    cases h
    rw [State.wakeQueue, foldl_makeRunnable]
    constructor <;> cases v <;> simp [hpc, ThreadPc.Issued, Example.printsAgain]
  all_goals
    obtain ⟨t, -, rfl⟩ := Option.map_eq_some_iff.1 h
    constructor <;> simp [hpc, ThreadPc.Issued]

theorem timeout_spec (h : step v s .timeout = some s') :
    s.init = .asleep ∧ s' = { s with initState := .running } := by
  unfold step at h
  split_ifs at h with hasleep
  exact ⟨hasleep, (Option.some.inj h).symm⟩

/-! ## Invariants -/

/-- The queue holds the entry of init from the time on that init has put it there. -/
structure Orderly (s : State) : Prop where
  created : s.thread ≠ .absent → 1 ≤ s.init.rank
  data : 3 ≤ s.init.rank → s.data = some .init
  head : s.head = if 4 ≤ s.init.rank then [.init] else []

theorem orderly_start : Orderly .start := by
  constructor
  · intro h
    contradiction
  · intro h
    contradiction
  · rfl

theorem InitStepped.orderly (h : InitStepped s s') (ho : Orderly s) : Orderly s' := by
  have hrank := h.rank
  constructor
  · intro _
    omega
  · intro h3
    rw [h.data]
    split_ifs with h2
    · rfl
    · exact ho.data (by omega)
  · rw [h.head]
    split_ifs with h1 h3 h4 h4 h4
    · omega
    · rfl
    · rw [ho.data (by omega), ho.head, if_neg (by omega)]
      rfl
    · omega
    · rw [ho.head, if_pos (by omega)]
    · rw [ho.head, if_neg (by omega)]

theorem Orderly.step {a : Action} (h : Orderly s) (hs : step v s a = some s') : Orderly s' := by
  cases a with
  | init => exact (initStep_spec hs).orderly h
  | thread =>
      have hstep := threadStep_spec hs
      constructor
      · intro _
        rw [hstep.init]
        exact h.created hstep.created
      · rw [hstep.init, hstep.data]
        exact h.data
      · rw [hstep.init, hstep.head]
        exact h.head
  | timeout =>
      obtain ⟨-, rfl⟩ := timeout_spec hs
      exact ⟨h.created, h.data, h.head⟩

/-- The wake-up was issued after init had set its state, and has reached it. -/
def Armed (s : State) : Prop :=
  s.thread.Issued → 7 ≤ s.init.rank ∧ (s.init.rank ≤ 8 → s.initState = .running)

theorem Armed.step {a : Action} (h : Armed s) (ho : Orderly s) (hok : InTime s a)
    (hs : step v s a = some s') : Armed s' := by
  intro hissued
  cases a with
  | init =>
      have hstep := initStep_spec hs
      rw [hstep.thread] at hissued
      split_ifs at hissued with hzero
      · rcases hissued with hpc | hpc <;> contradiction
      · obtain ⟨h7, hrunning⟩ := h hissued
        have hreturned := hstep.after h7
        rw [if_pos (hrunning hstep.enabled)] at hreturned
        omega
  | thread =>
      have hstep := threadStep_spec hs
      rw [hstep.init, hstep.initState]
      rcases hstep.issued.1 hissued with hpc | hissued
      · have h7 : 7 ≤ s.init.rank := hok rfl hpc
        have hqueued : .init ∈ s.head := by
          rw [ho.head, if_pos (by omega)]
          exact List.mem_cons_self
        rw [if_pos ⟨hpc, hqueued⟩]
        exact ⟨h7, fun _ => rfl⟩
      · obtain ⟨h7, hrunning⟩ := h hissued
        refine ⟨h7, fun h8 => ?_⟩
        rw [hrunning h8, ite_self]
  | timeout =>
      obtain ⟨hasleep, rfl⟩ := timeout_spec hs
      exact ⟨(h hissued).1, fun _ => rfl⟩

/-- The wake-up was issued and init has yet to go to sleep. -/
structure Doomed (s : State) : Prop where
  issued : s.thread.Issued
  created : 1 ≤ s.init.rank
  awake : s.init.rank ≤ 7
  state : s.init.rank = 7 → s.initState = .uninterruptible

theorem rank_eq_eight_iff {pc : InitPc} : pc.rank = 8 ↔ pc = .asleep := by
  cases pc <;> simp [InitPc.rank]

theorem Doomed.step {a : Action} (h : Doomed s) (hs : step v s a = some s')
    (hlost : ¬ s'.Lost) : Doomed s' := by
  have hcreated := h.created
  have hawake := h.awake
  cases a with
  | init =>
      have hstep := initStep_spec hs
      have hthread : s'.thread = s.thread := by rw [hstep.thread, if_neg (by omega)]
      have hissued : s'.thread.Issued := hthread ▸ h.issued
      by_cases h7 : s.init.rank = 7
      · have hstate := h.state h7
        have hasleep := hstep.after (Nat.le_of_eq h7.symm)
        rw [hstate, if_neg (by decide)] at hasleep
        have hkept : s'.initState = .uninterruptible := by
          rw [hstep.initState, hstate, ite_self]
        exact absurd ⟨hissued, rank_eq_eight_iff.1 hasleep, hkept⟩ hlost
      · have hnext := hstep.before (by omega)
        constructor
        · exact hissued
        · omega
        · omega
        · intro h7'
          rw [hstep.initState, if_pos (by omega)]
  | thread =>
      have hstep := threadStep_spec hs
      have hpc : s.thread ≠ .wakeUp := by
        rcases h.issued with hpc | hpc <;> rw [hpc] <;> decide
      constructor
      · exact hstep.issued.2 (Or.inr h.issued)
      · rwa [hstep.init]
      · rwa [hstep.init]
      · rw [hstep.init, hstep.initState, if_neg fun hw => hpc hw.1]
        exact h.state
  | timeout =>
      obtain ⟨hasleep, -⟩ := timeout_spec hs
      have h8 := rank_eq_eight_iff.2 hasleep
      omega

theorem rank_le {a : Action} (hs : step v s a = some s') : s.init.rank ≤ s'.init.rank := by
  cases a with
  | init =>
      have hrank := (initStep_spec hs).rank
      omega
  | thread => rw [(threadStep_spec hs).init]
  | timeout =>
      obtain ⟨-, rfl⟩ := timeout_spec hs
      exact Nat.le_refl _

end

/-! ## Runs -/

section

variable {v : Example} {s t : State} {as : List Action}

theorem rank_le_exec (h : exec (step v) s as = some t) : s.init.rank ≤ t.init.rank :=
  exec_invariant (I := fun u => s.init.rank ≤ u.init.rank)
    (fun _ _ _ hu hs => Nat.le_trans hu (rank_le hs)) (Nat.le_refl _) h

theorem orderly_exec (h : exec (step v) .start as = some t) : Orderly t :=
  exec_invariant (fun _ _ _ ho hs => ho.step hs) orderly_start h

theorem armed_exec (hok : Meets (step v) InTime .start as)
    (h : exec (step v) .start as = some t) : Armed t := by
  have hstart : Armed .start := by
    rintro (hpc | hpc) <;> contradiction
  have hboth : Orderly t ∧ Armed t :=
    exec_invariant_of_meets (I := fun u => Orderly u ∧ Armed u)
      (fun _ _ _ hu ha hs => ⟨hu.1.step hs, hu.2.step hu.1 ha hs⟩) ⟨orderly_start, hstart⟩ hok h
  exact hboth.2

theorem doomed_of_not_inTime {a : Action} (ho : Orderly s) (hok : ¬ InTime s a)
    (hs : step v s a = some t) : Doomed t := by
  obtain ⟨rfl, hpc, hearly⟩ : a = .thread ∧ s.thread = .wakeUp ∧ s.init.rank < 7 := by
    simpa [InTime, InitPc.rank] using hok
  have hstep := threadStep_spec hs
  have hcreated := ho.created hstep.created
  constructor
  · exact hstep.issued.2 (Or.inl hpc)
  · rwa [hstep.init]
  · rw [hstep.init]
    omega
  · rw [hstep.init]
    omega

/-- Init does not come to sleep out of a doomed state without being lost. -/
theorem doomed_exec (hd : Doomed s) (h : exec (step v) s as = some t)
    (hnever : ∀ pre post u, as = pre ++ post → exec (step v) s pre = some u → ¬ u.Lost) :
    Doomed t := by
  have hstart : ¬ s.Lost := hnever [] as s rfl rfl
  have hmeets : Meets (step v) (fun s a => ∀ s', step v s a = some s' → ¬ s'.Lost) s as :=
    (forall_reached_iff_meets (P := fun u : State => ¬ u.Lost) hstart).1 hnever
  exact exec_invariant_of_meets (fun _ _ s' hu hok hs => hu.step hs (hok s' hs)) hd hmeets h

end

/-- No wake-up is lost exactly as long as init has not gone to sleep or the wake-up came after it
had set its state. -/
theorem wake_up_never_lost_iff {v : Example} {as : List Action} {t : State}
    (h : exec (step v) .start as = some t) :
    NeverLost v as ↔
      (InitPc.asleep.rank ≤ t.init.rank → Meets (step v) InTime .start as) := by
  constructor
  · intro hnever hslept
    by_contra hno
    obtain ⟨pre, a, post, u, rfl, hu, ha⟩ := exists_of_not_meets hno
    rw [exec_append_of_eq hu] at h
    obtain ⟨u', hs, hpost⟩ := exec_cons_eq_some.1 h
    have hdoomed := doomed_of_not_inTime (orderly_exec hu) ha hs
    have hafter : ∀ pre' post' w, post = pre' ++ post' → exec (step v) u' pre' = some w →
        ¬ w.Lost := by
      rintro pre' post' w rfl hw
      apply hnever (pre ++ a :: pre') post' w (by simp)
      rw [exec_append_of_eq hu, exec_cons hs, hw]
    have hawake := (doomed_exec hdoomed hpost hafter).awake
    exact absurd (Nat.le_trans hslept hawake) (by decide)
  · rintro hcond pre post u rfl hu ⟨hissued, hasleep, hstate⟩
    rw [exec_append_of_eq hu] at h
    have h8 := rank_eq_eight_iff.2 hasleep
    have hslept : InitPc.asleep.rank ≤ t.init.rank := h8.symm.trans_le (rank_le_exec h)
    have harmed := armed_exec (meets_append.1 (hcond hslept)).1 hu
    have hrunning := (harmed hissued).2 (Nat.le_of_eq h8)
    rw [hstate] at hrunning
    contradiction

instance (s : State) (a : Action) : Decidable (InTime s a) :=
  inferInstanceAs (Decidable (_ → _ → _))

instance (pc : ThreadPc) : Decidable pc.Issued := inferInstanceAs (Decidable (_ ∨ _))

instance (s : State) : Decidable s.Lost := inferInstanceAs (Decidable (_ ∧ _ ∧ _))

def tillAsleep : List Action := List.replicate 8 .init

def lucky : List Action := tillAsleep ++ [.thread, .thread, .init]

def hasty : List Action := List.replicate 6 .init ++ [.thread, .thread, .init, .init]

theorem wake_up_never_lost_lucky : NeverLost .wakeUp lucky := by
  obtain ⟨t, ht, -⟩ := exists_of_exec_any State.start lucky (fun _ => true)
    (by decide +kernel : (exec (step .wakeUp) State.start lucky).any (fun _ => true) = true)
  exact (wake_up_never_lost_iff ht).2 fun _ => by decide +kernel

theorem not_neverLost {v : Example} {as : List Action}
    (h : (exec (step v) .start as).any (fun s => s.Lost) = true) : ¬ NeverLost v as := by
  intro hnever
  obtain ⟨t, ht, hlost⟩ := exists_of_exec_any _ _ _ h
  exact hnever as [] t (List.append_nil as).symm ht (of_decide_eq_true hlost)

/-- When the thread is hasty init sleeps until its timeout, in each of the examples. -/
theorem wake_up_lost : ¬ NeverLost .wakeUp hasty ∧ ¬ NeverLost .wakeUpSync hasty ∧
    ¬ NeverLost .wakeUpSyncKey hasty :=
  ⟨not_neverLost (by decide +kernel), not_neverLost (by decide +kernel),
    not_neverLost (by decide +kernel)⟩

end WakeUp
