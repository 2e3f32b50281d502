import LinuxDriver.AuditModule
import Mathlib.Data.Fintype.Basic

/-!
# No reader of the audit buffer sleeps through its wake-up

The producer wakes `buffer_wait` only when an append makes `current_pos` equal to 80, while
the readers wait for at least 80. This is enough because `current_pos` grows one by one and
otherwise only drops to 0: the wait condition becomes true nowhere but at the wake-up.
-/

open WaitQueue Interleaving

namespace Audit

variable {ι : Type*} {w w' : World ι}

/-- An append that makes the wait condition true wakes the readers. -/
theorem nearFull_append {m : Module} (cur : Current) (n res : Int32)
    (hbefore : m.nearFull = false) (hafter : (modSyscallAudit cur n res m).1.nearFull = true) :
    (modSyscallAudit cur n res m).2 = true := by
  by_cases hroom : m.currentPos < auditBufSize
  · rw [modSyscallAudit_room hroom] at hafter ⊢
    have hlt := of_decide_eq_false hbefore
    have hle := of_decide_eq_true hafter
    exact decide_eq_true (by simp only [auditBufSize] at hlt hle ⊢; omega)
  · rw [modSyscallAudit_full hroom, hbefore] at hafter
    contradiction

/-- Every reader inside the wait loop is armed for the condition on `current_pos`. -/
def Waiting (w : World ι) : Prop :=
  ∀ r, (w.reader r).pc = .waiting → (w.reader r).wait.Armed w.mod.nearFull

theorem waiting_initial : Waiting (initial ι) := fun r hr => by simp [initial] at hr

theorem waiting_append (h : Waiting w) (cur : Current) (n res : Int32) :
    Waiting (appendStep w cur n res) := by
  intro r hpc
  rw [appendStep_reader] at hpc ⊢
  rw [appendStep_mod]
  have harmed := h r hpc
  cases hwake : (modSyscallAudit cur n res w.mod).2 with
  | true => exact harmed.wake
  | false =>
      change Waiter.Armed _ (w.reader r).wait
      cases hafter : (modSyscallAudit cur n res w.mod).1.nearFull with
      | false => exact harmed.of_false
      | true =>
          cases hbefore : w.mod.nearFull with
          | true => exact hbefore ▸ harmed
          | false =>
              rw [nearFull_append cur n res hbefore hafter] at hwake
              contradiction

variable [DecidableEq ι]

theorem Waiting.setReader {r : ι} {rd : Reader} (h : Waiting w)
    (hrd : rd.pc = .waiting → rd.wait.Armed w.mod.nearFull) : Waiting (w.setReader r rd) :=
  forall_setReader (P := fun rd => rd.pc = .waiting → rd.wait.Armed w.mod.nearFull) hrd
    fun r' _ => h r'

theorem waiting_finish {r : ι} {ret : ℕ} (h : Waiting w) : Waiting (w.finish r ret) := by
  have hzero : (w.finish r ret).mod.nearFull = false := by
    simp [World.finish, Module.nearFull, auditBufSize]
  unfold Waiting
  rw [hzero]
  apply forall_setReader (P := fun rd => rd.pc = .waiting → rd.wait.Armed false)
  · intro hpc
    cases hpc
  · intro r' _ hpc
    exact (h r' hpc).of_false

theorem waiting_advance {r : ι} (h : Waiting w) (hs : modSysAudit w r = some w') :
    Waiting w' := by
  cases readerStep_of_eq_some hs with
  | wait wait' hpc hw hstay => exact h.setReader fun _ => (h r hpc).advance hw
  | pass wait' b hpc hw hleft => exact h.setReader fun hin => by simp at hin
  | begin hpc => exact h.setReader fun hin => by simp at hin
  | copy count done hpc hlt => exact h.setReader fun hin => by simp at hin
  | copied count done hpc hge => exact h.setReader fun hin => by simp at hin
  | count hpc => exact h.setReader fun hin => by simp at hin
  | reset ret hpc => exact waiting_finish h

theorem waiting_step {a : Action ι} (h : Waiting w) (hs : step w a = some w') : Waiting w' := by
  cases a with
  | append cur n res =>
      cases hs
      exact waiting_append h cur n res
  | call r type size reset =>
      rcases (callStep_eq_some hs).2 with rfl | rfl
      · exact h
      · exact h.setReader fun _ => Waiter.armed_of_running rfl
  | advance r => exact waiting_advance h hs
  | fault r =>
      obtain ⟨_, _, _, rfl⟩ := copyFault_eq_some hs
      exact h.setReader fun hin => by simp at hin
  | signal r =>
      cases hs
      exact h.setReader fun _ => Waiter.armed_of_running rfl

/-- A reader asleep on `buffer_wait` with no wake-up or signal pending although the buffer is
nearly full. -/
def LostWakeup (w : World ι) : Prop :=
  ∃ r, (w.reader r).pc = .waiting ∧ (w.reader r).wait.Stranded ∧
    auditBufSize * 8 / 10 ≤ w.mod.currentPos

theorem audit_no_lost_wakeup (as : List (Action ι)) (w : World ι)
    (h : exec step (initial ι) as = some w) : ¬ LostWakeup w := by
  rintro ⟨r, hpc, hstranded, hfull⟩
  have harmed := exec_invariant (fun _ _ _ hI hs => waiting_step hI hs) waiting_initial h r hpc
  have hnear : w.mod.nearFull = true := decide_eq_true hfull
  rw [hnear] at harmed
  exact harmed.not_stranded hstranded

/-- A reader falls asleep on an empty buffer, and then 81 system calls are audited. -/
def sleepThenFill : List (Action Unit) :=
  [.call () 0 5200 1] ++ List.replicate 3 (.advance ()) ++
    List.replicate 81 (.append ⟨none, 0, 0, 1, 0, 0, Vector.replicate commSize 0⟩ 5 0)

theorem audit_no_lost_wakeup_sleeper :
    ∃ w, exec step (initial Unit) sleepThenFill = some w ∧ (w.reader ()).wait.phase = .asleep ∧
      w.mod.currentPos = 81 ∧ ¬ LostWakeup w := by
  obtain ⟨w, hw, hc⟩ : ∃ w, exec step (initial Unit) sleepThenFill = some w ∧
      ((w.reader ()).wait.phase == .asleep && w.mod.currentPos == 81) = true :=
    exists_of_exec_any _ _ _ (by decide +kernel)
  simp only [Bool.and_eq_true, beq_iff_eq] at hc
  exact ⟨w, hw, hc.1, hc.2, audit_no_lost_wakeup sleepThenFill w hw⟩

end Audit
