import LinuxDriver.Interleaving
import LinuxDriver.SerialHistory
import LinuxDriver.UserCopy

/-!
# The mutex driver

`mutex/mutex.c`: `my_read` and `my_write` copy between the caller and the block
`shared_resource` with `resource_mutex` held. The copies move one byte at a time and may fault
before any byte. After a fault `copy_from_user` of some kernels clears the rest of its
destination, which `pads` says.
-/

namespace MutexDriver

def EFAULT : Int64 := 14

/-- `min(count, 1024UL)`. -/
def bound (count : UInt64) : ℕ := (min count 1024).toNat

inductive Call
  | read (count : UInt64)
  | write (count : UInt64)
deriving DecidableEq

/-- Where a call is: the bytes it has moved, what the copy left, and what it returns. -/
inductive Stage
  | lock
  | copy (moved : List UInt8)
  | fill (moved : List UInt8) (filled : ℕ)
  | copied (moved : List UInt8) (ret : ℕ)
  | unlock (moved : List UInt8) (result : Int64)
  | done (moved : List UInt8) (result : Int64)
deriving DecidableEq

def Stage.inside : Stage → Bool
  | .lock => false
  | .done _ _ => false
  | _ => true

structure Memory (ι : Type*) where
  resourceMutex : Option ι
  resource : ℕ → UInt8

/-- What the copy finds at the next byte of the user's buffer. -/
structure User where
  fault : Bool
  byte : UInt8

section

variable {ι : Type*} [DecidableEq ι]

/-- The next step of `my_read(file, buf, count, pos)`. -/
def myRead (count : UInt64) (me : ι) (u : User) (m : Memory ι) : Stage → Option (Memory ι × Stage)
  | .lock =>
      if m.resourceMutex = none then some ({ m with resourceMutex := some me }, .copy []) else none
  | .copy moved =>
      if moved.length = bound count then some (m, .copied moved 0)
      else if u.fault then some (m, .copied moved (bound count - moved.length))
      else some (m, .copy (moved ++ [m.resource moved.length]))
  | .fill _ _ => none
  | .copied moved ret =>
      if ret = 0 then some (m, .unlock moved 1024) else some (m, .unlock moved (-EFAULT))
  | .unlock moved result => some ({ m with resourceMutex := none }, .done moved result)
  | .done _ _ => none

/-- The next step of `my_write(file, buf, count, pos)`. -/
def myWrite (pads : Bool) (count : UInt64) (me : ι) (u : User) (m : Memory ι) :
    Stage → Option (Memory ι × Stage)
  | .lock =>
      if m.resourceMutex = none then some ({ m with resourceMutex := some me }, .copy []) else none
  | .copy moved =>
      if moved.length = bound count then some (m, .copied moved 0)
      else if u.fault then
        if pads then some (m, .fill moved moved.length)
        else some (m, .copied moved (bound count - moved.length))
      else some ({ m with resource := Function.update m.resource moved.length u.byte },
        .copy (moved ++ [u.byte]))
  | .fill moved filled =>
      if filled = bound count then some (m, .copied moved (bound count - moved.length))
      else some ({ m with resource := Function.update m.resource filled 0 },
        .fill moved (filled + 1))
  | .copied moved ret =>
      if ret = 0 then some (m, .unlock moved count.toInt64) else some (m, .unlock moved (-EFAULT))
  | .unlock moved result => some ({ m with resourceMutex := none }, .done moved result)
  | .done _ _ => none

def Call.step (pads : Bool) (me : ι) (u : User) (m : Memory ι) :
    Call → Stage → Option (Memory ι × Stage)
  | .read count => myRead count me u m
  | .write count => myWrite pads count me u m

end

/-- What was done between a lock and its unlock. -/
structure Section (ι : Type*) where
  caller : ι
  call : Call
  moved : List UInt8
  result : Int64

/-- `lockOrder` and `sections` are ghost data: who took the mutex, and what was done with it. -/
structure World (ι : Type*) where
  memory : Memory ι
  caller : ι → Option (Call × Stage)
  lockOrder : List ι
  sections : List (Section ι)

inductive Action (ι : Type*)
  | call (i : ι) (c : Call)
  | step (i : ι) (u : User)
  | return (i : ι)

section

variable {ι : Type*} [DecidableEq ι]

def World.setCaller (w : World ι) (i : ι) (c : Option (Call × Stage)) : World ι :=
  { w with caller := Function.update w.caller i c }

/-- What a step from a stage adds to the ghost data. -/
def World.record (w : World ι) (i : ι) (c : Call) : Stage → World ι
  | .lock => { w with lockOrder := w.lockOrder ++ [i] }
  | .unlock moved result => { w with sections := w.sections ++ [⟨i, c, moved, result⟩] }
  | _ => w

def step (pads : Bool) (w : World ι) : Action ι → Option (World ι)
  | .call i c => match w.caller i with
      | none => some (w.setCaller i (some (c, .lock)))
      | some _ => none
  | .step i u => match w.caller i with
      | none => none
      | some (c, stage) => (c.step pads i u w.memory stage).map fun r =>
          ({ w with memory := r.1 }.record i c stage).setCaller i (some (c, r.2))
  | .return i => match w.caller i with
      | some (_, .done _ _) => some (w.setCaller i none)
      | _ => none

def initial (block : ℕ → UInt8) : World ι := ⟨⟨none, block⟩, fun _ => none, [], []⟩

/-- The caller is between its lock and its unlock. -/
def World.Inside (w : World ι) (i : ι) : Prop := (w.caller i).any fun c => c.2.inside

end

/-! ## The driver as a sequential object -/

def Call.bound : Call → ℕ
  | .read count => MutexDriver.bound count
  | .write count => MutexDriver.bound count

def Call.success : Call → Int64
  | .read _ => 1024
  | .write count => count.toInt64

def store (bytes : List UInt8) (block : ℕ → UInt8) : ℕ → UInt8 := fun k => bytes.getD k (block k)

def Call.put (bytes : List UInt8) (block : ℕ → UInt8) : Call → ℕ → UInt8
  | .read _ => block
  | .write _ => store bytes block

/-- The bytes a call has moved are within its bound, and those of a read are the block's. -/
def Call.Moves (c : Call) (block : ℕ → UInt8) (moved : List UInt8) : Prop :=
  moved.length ≤ c.bound ∧ ∀ count, c = .read count → moved = (List.range moved.length).map block

def padding (pads : Bool) (c : Call) (moved : List UInt8) : List UInt8 :=
  if pads then List.replicate (c.bound - moved.length) 0 else []

/-- `my_read` and `my_write` taken in one piece. -/
def driver (pads : Bool) (ι : Type*) : SerialObject (ℕ → UInt8) (Section ι) where
  effect s block := s.call.put (s.moved ++ padding pads s.call s.moved) block
  Legal block s := s.call.Moves block s.moved ∧
    s.result = if s.moved.length = s.call.bound then s.call.success else -EFAULT

theorem store_concat (bytes : List UInt8) (b : UInt8) (block : ℕ → UInt8) :
    store (bytes ++ [b]) block = Function.update (store bytes block) bytes.length b :=
  UserCopy.store_concat bytes b block

theorem padding_of_complete (pads : Bool) {c : Call} {moved : List UInt8}
    (h : moved.length = c.bound) : padding pads c moved = [] := by
  cases pads with
  | false => rfl
  | true => simp [padding, h]

theorem moves_nil (c : Call) (block : ℕ → UInt8) : c.Moves block [] :=
  ⟨Nat.zero_le _, fun _ _ => rfl⟩

theorem Call.Moves.concat {count : UInt64} {block : ℕ → UInt8} {moved : List UInt8}
    (h : (Call.read count).Moves block moved) (hlt : moved.length ≠ MutexDriver.bound count) :
    (Call.read count).Moves block (moved ++ [block moved.length]) := by
  obtain ⟨hle, hmap⟩ := h
  refine ⟨?_, fun _ _ => ?_⟩
  · rw [List.length_append]
    exact Nat.lt_of_le_of_ne hle hlt
  · rw [List.length_append, List.length_singleton, List.range_succ, List.map_append,
      ← hmap count rfl]
    rfl

/-- What a call that holds the mutex has made of the block it found. -/
def Progress (pads : Bool) (c : Call) (found block : ℕ → UInt8) : Stage → Prop
  | .lock => True
  | .copy moved => c.Moves found moved ∧ block = c.put moved found
  | .fill moved filled => pads = true ∧ c.Moves found moved ∧ moved.length ≠ c.bound ∧
      moved.length ≤ filled ∧ filled ≤ c.bound ∧
      block = c.put (moved ++ List.replicate (filled - moved.length) 0) found
  | .copied moved ret => c.Moves found moved ∧ ret = c.bound - moved.length ∧
      block = c.put (moved ++ padding pads c moved) found
  | .unlock moved result => c.Moves found moved ∧
      result = (if moved.length = c.bound then c.success else -EFAULT) ∧
      block = c.put (moved ++ padding pads c moved) found
  | .done _ _ => True

theorem Progress.choose {pads : Bool} {c : Call} {found block : ℕ → UInt8} {moved : List UInt8}
    {ret : ℕ} (h : Progress pads c found block (.copied moved ret)) :
    Progress pads c found block (.unlock moved (if ret = 0 then c.success else -EFAULT)) := by
  obtain ⟨hmoves, hret, hblock⟩ := h
  have hle := hmoves.1
  have hiff : ret = 0 ↔ moved.length = c.bound := by omega
  refine ⟨hmoves, ?_, hblock⟩
  simp only [hiff]

theorem Progress.finish {pads : Bool} {c : Call} {found block : ℕ → UInt8} {moved : List UInt8}
    (h : Progress pads c found block (.copy moved)) (hfull : moved.length = c.bound) :
    Progress pads c found block (.copied moved 0) := by
  obtain ⟨hmoves, hblock⟩ := h
  refine ⟨hmoves, by omega, ?_⟩
  rw [padding_of_complete pads hfull, List.append_nil]
  exact hblock

theorem Progress.write {pads : Bool} {count : UInt64} {found block : ℕ → UInt8}
    {moved : List UInt8} (h : Progress pads (.write count) found block (.copy moved))
    (hfull : moved.length ≠ bound count) (b : UInt8) :
    Progress pads (.write count) found (Function.update block moved.length b)
      (.copy (moved ++ [b])) := by
  obtain ⟨hmoves, hblock⟩ := h
  refine ⟨⟨?_, fun _ hread => by cases hread⟩, ?_⟩
  · rw [List.length_append]
    exact Nat.lt_of_le_of_ne hmoves.1 hfull
  · rw [hblock]
    exact (store_concat moved b found).symm

theorem Progress.clear {pads : Bool} {count : UInt64} {found block : ℕ → UInt8}
    {moved : List UInt8} {filled : ℕ}
    (h : Progress pads (.write count) found block (.fill moved filled))
    (hfull : filled ≠ bound count) :
    Progress pads (.write count) found (Function.update block filled 0)
      (.fill moved (filled + 1)) := by
  obtain ⟨hpads, hmoves, hlt, hge, hle, hblock⟩ := h
  refine ⟨hpads, hmoves, hlt, Nat.le_succ_of_le hge, Nat.lt_of_le_of_ne hle hfull, ?_⟩
  rw [hblock]
  exact (UserCopy.store_fill_succ hge 0 found).symm

theorem Progress.cleared {pads : Bool} {count : UInt64} {found block : ℕ → UInt8}
    {moved : List UInt8} {filled : ℕ}
    (h : Progress pads (.write count) found block (.fill moved filled))
    (hfull : filled = bound count) :
    Progress pads (.write count) found block (.copied moved (bound count - moved.length)) := by
  obtain ⟨hpads, hmoves, hlt, hge, hle, hblock⟩ := h
  refine ⟨hmoves, rfl, ?_⟩
  rw [hblock, padding, if_pos hpads, hfull]
  rfl

section

variable {ι : Type*}

/-! ## What a step can do -/

inductive CallMove (pads : Bool) (c : Call) (me : ι) (m : Memory ι) :
    Stage → Memory ι → Stage → Prop
  | take (hfree : m.resourceMutex = none) :
      CallMove pads c me m .lock { m with resourceMutex := some me } (.copy [])
  | work (stage : Stage) (block : ℕ → UInt8) (stage' : Stage) (hstage : stage.inside)
      (hstage' : stage'.inside) (hunlock : ∀ moved result, stage ≠ .unlock moved result)
      (hprogress : ∀ found, Progress pads c found m.resource stage →
        Progress pads c found block stage') :
      CallMove pads c me m stage { m with resource := block } stage'
  | leave (moved : List UInt8) (result : Int64) :
      CallMove pads c me m (.unlock moved result) { m with resourceMutex := none }
        (.done moved result)

theorem myRead_move {pads : Bool} {count : UInt64} {me : ι} {u : User} {m m' : Memory ι}
    {stage stage' : Stage} (h : myRead count me u m stage = some (m', stage')) :
    CallMove pads (.read count) me m stage m' stage' := by
  cases stage with
  | lock =>
      simp only [myRead, Option.ite_none_right_eq_some, Option.some.injEq, Prod.mk.injEq] at h
      obtain ⟨hfree, rfl, rfl⟩ := h
      exact .take hfree
  | copy moved =>
      simp only [myRead] at h
      split_ifs at h with hfull hfault
      · cases h
        exact .work _ m.resource _ rfl rfl (by simp) fun found hp => hp.finish hfull
      · cases h
        refine .work _ m.resource _ rfl rfl (by simp) fun found hp => ?_
        exact ⟨hp.1, rfl, hp.2⟩
      · cases h
        refine .work _ m.resource _ rfl rfl (by simp) fun found hp => ?_
        obtain ⟨hmoves, hblock⟩ := hp
        rw [hblock]
        exact ⟨hmoves.concat hfull, rfl⟩
  | fill moved filled => cases h
  | copied moved ret =>
      have hstep : (m, Stage.unlock moved (if ret = 0 then 1024 else -EFAULT)) = (m', stage') := by
        simp only [myRead] at h
        split_ifs at h ⊢ <;> exact Option.some.inj h
      cases hstep
      exact .work _ m.resource _ rfl rfl (by simp) fun found hp => hp.choose
  | unlock moved result =>
      cases h
      exact .leave moved result
  | done moved result => cases h

theorem myWrite_move {pads : Bool} {count : UInt64} {me : ι} {u : User} {m m' : Memory ι}
    {stage stage' : Stage} (h : myWrite pads count me u m stage = some (m', stage')) :
    CallMove pads (.write count) me m stage m' stage' := by
  cases stage with
  | lock =>
      simp only [myWrite, Option.ite_none_right_eq_some, Option.some.injEq, Prod.mk.injEq] at h
      obtain ⟨hfree, rfl, rfl⟩ := h
      exact .take hfree
  | copy moved =>
      simp only [myWrite] at h
      split_ifs at h with hfull hfault hpads
      · cases h
        exact .work _ m.resource _ rfl rfl (by simp) fun found hp => hp.finish hfull
      · cases h
        refine .work _ m.resource _ rfl rfl (by simp) fun found hp => ?_
        obtain ⟨hmoves, hblock⟩ := hp
        refine ⟨hpads, hmoves, hfull, Nat.le_refl _, hmoves.1, ?_⟩
        rw [Nat.sub_self, List.replicate_zero, List.append_nil]
        exact hblock
      · cases h
        refine .work _ m.resource _ rfl rfl (by simp) fun found hp => ?_
        obtain ⟨hmoves, hblock⟩ := hp
        refine ⟨hmoves, rfl, ?_⟩
        rw [padding, if_neg hpads, List.append_nil]
        exact hblock
      · cases h
        exact .work _ _ _ rfl rfl (by simp) fun found hp => hp.write hfull u.byte
  | fill moved filled =>
      simp only [myWrite] at h
      split_ifs at h with hfull
      · cases h
        exact .work _ m.resource _ rfl rfl (by simp) fun found hp => hp.cleared hfull
      · cases h
        exact .work _ _ _ rfl rfl (by simp) fun found hp => hp.clear hfull
  | copied moved ret =>
      have hstep : (m, Stage.unlock moved (if ret = 0 then count.toInt64 else -EFAULT)) =
          (m', stage') := by
        simp only [myWrite] at h
        split_ifs at h ⊢ <;> exact Option.some.inj h
      cases hstep
      exact .work _ m.resource _ rfl rfl (by simp) fun found hp => hp.choose
  | unlock moved result =>
      cases h
      exact .leave moved result
  | done moved result => cases h

theorem Call.step_move {pads : Bool} {c : Call} {me : ι} {u : User} {m m' : Memory ι}
    {stage stage' : Stage} (h : c.step pads me u m stage = some (m', stage')) :
    CallMove pads c me m stage m' stage' := by
  cases c with
  | read count => exact myRead_move h
  | write count => exact myWrite_move h

variable [DecidableEq ι]

inductive Move (pads : Bool) (w : World ι) : World ι → Prop
  | call (i : ι) (c : Call) (hi : w.caller i = none) :
      Move pads w (w.setCaller i (some (c, .lock)))
  | take (i : ι) (c : Call) (hi : w.caller i = some (c, .lock))
      (hfree : w.memory.resourceMutex = none) :
      Move pads w (World.setCaller { w with
        memory := { w.memory with resourceMutex := some i }
        lockOrder := w.lockOrder ++ [i] } i (some (c, .copy [])))
  | work (i : ι) (c : Call) (stage : Stage) (block : ℕ → UInt8) (stage' : Stage)
      (hi : w.caller i = some (c, stage)) (hstage : stage.inside) (hstage' : stage'.inside)
      (hprogress : ∀ found, Progress pads c found w.memory.resource stage →
        Progress pads c found block stage') :
      Move pads w (World.setCaller { w with
        memory := { w.memory with resource := block } } i (some (c, stage')))
  | leave (i : ι) (c : Call) (moved : List UInt8) (result : Int64)
      (hi : w.caller i = some (c, .unlock moved result)) :
      Move pads w (World.setCaller { w with
        memory := { w.memory with resourceMutex := none }
        sections := w.sections ++ [⟨i, c, moved, result⟩] } i (some (c, .done moved result)))
  | return (i : ι) (c : Call) (moved : List UInt8) (result : Int64)
      (hi : w.caller i = some (c, .done moved result)) : Move pads w (w.setCaller i none)

theorem step_move {pads : Bool} {w w' : World ι} {a : Action ι} (h : step pads w a = some w') :
    Move pads w w' := by
  cases a with
  | call i c =>
      simp only [step] at h
      split at h
      · cases h
        exact .call i c ‹_›
      · cases h
  | step i u =>
      simp only [step] at h
      split at h
      · cases h
      · rename_i c stage hi
        obtain ⟨⟨m', stage'⟩, hstep, rfl⟩ := Option.map_eq_some_iff.1 h
        cases c.step_move hstep with
        | take hfree => exact .take i c hi hfree
        | work _ block _ hstage hstage' hunlock hprogress =>
            have hrecord : ∀ v : World ι, v.record i c stage = v := by
              intro v
              cases stage with
              | lock => cases hstage
              | unlock moved result => exact absurd rfl (hunlock moved result)
              | copy moved => rfl
              | fill moved filled => rfl
              | copied moved ret => rfl
              | done moved result => rfl
            rw [hrecord]
            exact .work i c stage block stage' hi hstage hstage' hprogress
        | leave moved result => exact .leave i c moved result hi
  | «return» i =>
      simp only [step] at h
      split at h
      · rename_i c moved result hi
        cases h
        exact .return i c moved result hi
      · cases h

end

end MutexDriver
