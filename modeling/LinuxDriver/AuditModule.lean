import LinuxDriver.Interleaving
import LinuxDriver.WaitQueue
import Mathlib.Data.List.Range

/-!
# The system call audit module

`auditexample/module/audit.c`: `mod_syscall_audit` appends one record to `audit_buf` and
`mod_sys_audit` hands the buffer to a reader. The append is atomic. A reader of type 0 clears
its buffer, waits on `buffer_wait` until 80 records are there, evaluates `current_pos`, copies
that many records one after another, reads `current_pos` again as its result and sets it to 0;
each of these is a step of its own, and a copy may also stop early at a fault that
`__copy_to_user` reports and the code ignores. `accepted` and `drains` record what was stored
and what the finished calls handed out.
-/

open WaitQueue

namespace Audit

def commSize : ℕ := 16

def auditBufSize : ℕ := 100

structure SyscallBuf where
  serial : UInt32
  tsSec : UInt32
  tsMicro : UInt32
  syscall : UInt32
  status : UInt32
  pid : Int32
  uid : UInt32
  euid : UInt32
  device : Int32
  comm : Vector UInt8 commSize
  deriving DecidableEq

/-- What an append reads from `current` and `xtime`; `tty` is the device of the terminal. -/
structure Current where
  tty : Option Int32
  tvSec : UInt32
  tvUsec : UInt32
  pid : Int32
  uid : UInt32
  euid : UInt32
  comm : Vector UInt8 commSize
  deriving DecidableEq

structure Module where
  auditBuf : ℕ → SyscallBuf
  currentPos : ℕ
  serial : UInt32

namespace Module

/-- The records in `audit_buf` that `current_pos` counts. -/
def buffered (m : Module) : List SyscallBuf := (List.range m.currentPos).map m.auditBuf

def nearFull (m : Module) : Bool := decide (auditBufSize * 8 / 10 ≤ m.currentPos)

def record (m : Module) (cur : Current) (syscall returnStatus : Int32) : SyscallBuf where
  serial := m.serial
  tsSec := cur.tvSec
  tsMicro := cur.tvUsec
  syscall := syscall.toUInt32
  status := returnStatus.toUInt32
  pid := cur.pid
  uid := cur.uid
  euid := cur.euid
  device := cur.tty.getD (-1)
  comm := cur.comm

end Module

/-- The new module data and whether `buffer_wait` is woken. -/
def modSyscallAudit (cur : Current) (syscall returnStatus : Int32) (m : Module) : Module × Bool :=
  if m.currentPos < auditBufSize then
    ({ auditBuf := Function.update m.auditBuf m.currentPos (m.record cur syscall returnStatus)
       currentPos := m.currentPos + 1
       serial := m.serial + 1 },
      decide (m.currentPos + 1 = auditBufSize * 8 / 10))
  else (m, false)

/-- Program points of `mod_sys_audit`: the copy has moved `done` of `count` records. -/
inductive ReaderPc
  | out
  | waiting
  | copyBegin
  | copying (count done : ℕ)
  | readCount
  | reset (ret : ℕ)
  deriving DecidableEq

structure Reader where
  pc : ReaderPc
  wait : Waiter
  usBufSize : UInt16
  usBuf : List SyscallBuf
  deriving DecidableEq

/-- A finished call of type 0: the records in its user buffer and its return value. -/
structure Drain where
  records : List SyscallBuf
  count : ℕ
  deriving DecidableEq

structure World (ι : Type*) where
  mod : Module
  reader : ι → Reader
  accepted : List SyscallBuf
  drains : List Drain

inductive Action (ι : Type*)
  | append (cur : Current) (syscall returnStatus : Int32)
  | call (r : ι) (type : UInt8) (usBufSize : UInt16) (reset : UInt8)
  | advance (r : ι)
  | fault (r : ι)
  | signal (r : ι)

variable {ι : Type*}

def noRecord : SyscallBuf := ⟨0, 0, 0, 0, 0, 0, 0, 0, 0, Vector.replicate commSize 0⟩

def initial (ι : Type*) : World ι where
  mod := ⟨fun _ => noRecord, 0, 0⟩
  reader := fun _ => ⟨.out, ⟨.enqueue, false, false, false⟩, 0, []⟩
  accepted := []
  drains := []

namespace World

variable [DecidableEq ι]

def setReader (w : World ι) (r : ι) (rd : Reader) : World ι :=
  { w with reader := Function.update w.reader r rd }

def finish (w : World ι) (r : ι) (ret : ℕ) : World ι :=
  let rd := w.reader r
  { w.setReader r { rd with pc := .out, wait := { rd.wait with signal := false } } with
    mod := { w.mod with currentPos := 0 }
    drains := w.drains ++ [⟨rd.usBuf, ret⟩] }

def delivered (w : World ι) : List SyscallBuf := w.drains.flatMap Drain.records

end World

def wakeUpInterruptible (w : World ι) : World ι :=
  { w with reader := fun r => { w.reader r with wait := (w.reader r).wait.wake } }

def appendStep (w : World ι) (cur : Current) (syscall returnStatus : Int32) : World ι :=
  let w' := { w with
    mod := (modSyscallAudit cur syscall returnStatus w.mod).1
    accepted := if w.mod.currentPos < auditBufSize
      then w.accepted ++ [w.mod.record cur syscall returnStatus] else w.accepted }
  if (modSyscallAudit cur syscall returnStatus w.mod).2 then wakeUpInterruptible w' else w'

variable [DecidableEq ι]

/-- Enter `mod_sys_audit`; a type other than 0 returns 0 at once, and `reset` is not used. -/
def callStep (w : World ι) (r : ι) (type : UInt8) (usBufSize : UInt16) : Option (World ι) :=
  match (w.reader r).pc with
  | .out =>
      if type = 0 then
        some (w.setReader r ⟨.waiting, (w.reader r).wait.enter, usBufSize, []⟩)
      else some w
  | _ => none

def modSysAudit (w : World ι) (r : ι) : Option (World ι) :=
  let rd := w.reader r
  match rd.pc with
  | .out => none
  | .waiting =>
      match rd.wait.advance w.mod.nearFull with
      | none => none
      | some wait =>
          -- the result of the wait is overwritten: an interrupted reader drains too
          match wait.phase with
          | .left _ => some (w.setReader r { rd with pc := .copyBegin, wait := wait })
          | _ => some (w.setReader r { rd with wait := wait })
  | .copyBegin => some (w.setReader r { rd with pc := .copying w.mod.currentPos 0 })
  | .copying count done =>
      if done < count then
        some (w.setReader r { rd with
          pc := .copying count (done + 1), usBuf := rd.usBuf ++ [w.mod.auditBuf done] })
      else some (w.setReader r { rd with pc := .readCount })
  | .readCount => some (w.setReader r { rd with pc := .reset w.mod.currentPos })
  | .reset ret => some (w.finish r ret)

/-- The copy stops where it is; what `__copy_to_user` returns is not looked at. A copy is taken to
fault between two records: one that faults inside a record leaves part of it in the user's buffer,
behind the records that count as handed out. -/
def copyFault (w : World ι) (r : ι) : Option (World ι) :=
  match (w.reader r).pc with
  | .copying _ _ => some (w.setReader r { w.reader r with pc := .readCount })
  | _ => none

def step (w : World ι) : Action ι → Option (World ι)
  | .append cur syscall returnStatus => some (appendStep w cur syscall returnStatus)
  | .call r type usBufSize _ => callStep w r type usBufSize
  | .advance r => modSysAudit w r
  | .fault r => copyFault w r
  | .signal r => some (w.setReader r { w.reader r with wait := (w.reader r).wait.interrupt })

/-! ## What a step does -/

section Append

variable {ι : Type*} (w : World ι) (cur : Current) (n res : Int32)

@[simp] theorem appendStep_mod : (appendStep w cur n res).mod =
    (modSyscallAudit cur n res w.mod).1 := by
  unfold appendStep
  dsimp only
  split_ifs <;> rfl

theorem appendStep_accepted : (appendStep w cur n res).accepted =
    if w.mod.currentPos < auditBufSize then w.accepted ++ [w.mod.record cur n res]
    else w.accepted := by
  unfold appendStep
  dsimp only
  split_ifs <;> rfl

@[simp] theorem appendStep_drains : (appendStep w cur n res).drains = w.drains := by
  unfold appendStep
  dsimp only
  split_ifs <;> rfl

theorem appendStep_reader (r : ι) : (appendStep w cur n res).reader r =
    { w.reader r with wait := if (modSyscallAudit cur n res w.mod).2
      then (w.reader r).wait.wake else (w.reader r).wait } := by
  unfold appendStep
  dsimp only
  split_ifs <;> rfl

end Append

theorem modSyscallAudit_full {m : Module} (h : ¬ m.currentPos < auditBufSize) (cur : Current)
    (n res : Int32) : modSyscallAudit cur n res m = (m, false) := if_neg h

theorem modSyscallAudit_room {m : Module} (h : m.currentPos < auditBufSize) (cur : Current)
    (n res : Int32) : modSyscallAudit cur n res m =
      ({ auditBuf := Function.update m.auditBuf m.currentPos (m.record cur n res)
         currentPos := m.currentPos + 1
         serial := m.serial + 1 },
        decide (m.currentPos + 1 = auditBufSize * 8 / 10)) := if_pos h

theorem buffered_length (m : Module) : m.buffered.length = m.currentPos := by
  simp [Module.buffered]

theorem buffered_append {m : Module} (h : m.currentPos < auditBufSize) (cur : Current)
    (n res : Int32) : (modSyscallAudit cur n res m).1.buffered =
      m.buffered ++ [m.record cur n res] := by
  rw [modSyscallAudit_room h]
  simp only [Module.buffered, List.range_succ, List.map_append, List.map_cons, List.map_nil,
    Function.update_self]
  congr 1
  refine List.map_congr_left fun k hk => ?_
  rw [Function.update_of_ne (List.mem_range.1 hk).ne]

@[simp] theorem reader_setReader_self (w : World ι) (r : ι) (rd : Reader) :
    (w.setReader r rd).reader r = rd := Function.update_self ..

theorem reader_setReader_of_ne (w : World ι) {r r' : ι} (h : r' ≠ r) (rd : Reader) :
    (w.setReader r rd).reader r' = w.reader r' := Function.update_of_ne h ..

/-- What holds of a reader's new state and of all the others holds of every reader. -/
theorem forall_setReader {P : Reader → Prop} {w : World ι} {r : ι} {rd : Reader} (hrd : P rd)
    (hothers : ∀ r', r' ≠ r → P (w.reader r')) (r' : ι) : P ((w.setReader r rd).reader r') := by
  by_cases hr : r' = r
  · subst hr
    rw [reader_setReader_self]
    exact hrd
  · rw [reader_setReader_of_ne w hr]
    exact hothers r' hr

inductive ReaderStep (w : World ι) (r : ι) : World ι → Prop
  | wait (wait' : Waiter) (hpc : (w.reader r).pc = .waiting)
      (hw : (w.reader r).wait.advance w.mod.nearFull = some wait')
      (hstay : ∀ b, wait'.phase ≠ .left b) :
      ReaderStep w r (w.setReader r { w.reader r with wait := wait' })
  | pass (wait' : Waiter) (interrupted : Bool) (hpc : (w.reader r).pc = .waiting)
      (hw : (w.reader r).wait.advance w.mod.nearFull = some wait')
      (hleft : wait'.phase = .left interrupted) :
      ReaderStep w r (w.setReader r { w.reader r with pc := .copyBegin, wait := wait' })
  | begin (hpc : (w.reader r).pc = .copyBegin) :
      ReaderStep w r (w.setReader r { w.reader r with pc := .copying w.mod.currentPos 0 })
  | copy (count done : ℕ) (hpc : (w.reader r).pc = .copying count done) (hlt : done < count) :
      ReaderStep w r (w.setReader r { w.reader r with
        pc := .copying count (done + 1)
        usBuf := (w.reader r).usBuf ++ [w.mod.auditBuf done] })
  | copied (count done : ℕ) (hpc : (w.reader r).pc = .copying count done)
      (hge : ¬ done < count) :
      ReaderStep w r (w.setReader r { w.reader r with pc := .readCount })
  | count (hpc : (w.reader r).pc = .readCount) :
      ReaderStep w r (w.setReader r { w.reader r with pc := .reset w.mod.currentPos })
  | reset (ret : ℕ) (hpc : (w.reader r).pc = .reset ret) : ReaderStep w r (w.finish r ret)

theorem readerStep_of_eq_some {w w' : World ι} {r : ι} (h : modSysAudit w r = some w') :
    ReaderStep w r w' := by
  cases hpc : (w.reader r).pc with
  | out => simp [modSysAudit, hpc] at h
  | waiting =>
      simp only [modSysAudit, hpc] at h
      cases hw : (w.reader r).wait.advance w.mod.nearFull with
      | none => simp [hw] at h
      | some wait' =>
          simp only [hw] at h
          cases hph : wait'.phase with
          | left b =>
              simp only [hph, Option.some.injEq] at h
              exact h ▸ ReaderStep.pass wait' b hpc hw hph
          | _ =>
              simp only [hph, Option.some.injEq] at h
              rw [← h, ← hpc]
              exact ReaderStep.wait wait' hpc hw (by simp [hph])
  | copyBegin =>
      simp only [modSysAudit, hpc, Option.some.injEq] at h
      exact h ▸ ReaderStep.begin hpc
  | copying count done =>
      simp only [modSysAudit, hpc] at h
      split_ifs at h with hlt
      · cases h
        exact ReaderStep.copy count done hpc hlt
      · cases h
        exact ReaderStep.copied count done hpc hlt
  | readCount =>
      simp only [modSysAudit, hpc, Option.some.injEq] at h
      exact h ▸ ReaderStep.count hpc
  | reset ret =>
      simp only [modSysAudit, hpc, Option.some.injEq] at h
      exact h ▸ ReaderStep.reset ret hpc

/-- A call leaves the module data alone and starts in the wait loop or has returned. -/
theorem callStep_eq_some {w w' : World ι} {r : ι} {type : UInt8} {size : UInt16}
    (h : callStep w r type size = some w') : (w.reader r).pc = .out ∧
      (w' = w ∨ w' = w.setReader r ⟨.waiting, (w.reader r).wait.enter, size, []⟩) := by
  unfold callStep at h
  cases hpc : (w.reader r).pc <;> simp only [hpc, reduceCtorEq] at h
  split_ifs at h
  · cases h
    exact ⟨rfl, Or.inr rfl⟩
  · cases h
    exact ⟨rfl, Or.inl rfl⟩

theorem copyFault_eq_some {w w' : World ι} {r : ι} (h : copyFault w r = some w') :
    ∃ count done, (w.reader r).pc = .copying count done ∧
      w' = w.setReader r { w.reader r with pc := .readCount } := by
  unfold copyFault at h
  cases hpc : (w.reader r).pc <;> simp only [hpc, reduceCtorEq] at h
  cases h
  exact ⟨_, _, rfl, rfl⟩

end Audit
