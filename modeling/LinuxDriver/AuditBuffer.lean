import LinuxDriver.AuditDelivery

/-!
# What the audit buffer holds

At every moment the first `current_pos` slots of `audit_buf` hold the last records that were
accepted, numbered up to the serial number that comes next, and no slot past the end of the
array is stored into or copied from.
-/

open Interleaving

namespace Audit

variable {ι : Type*} {w w' : World ι}

/-- The slot of `audit_buf` that a step stores into or copies from. -/
def slot (w : World ι) : Action ι → Option ℕ
  | .append _ _ _ => if w.mod.currentPos < auditBufSize then some w.mod.currentPos else none
  | .advance r =>
      match (w.reader r).pc with
      | .copying count done => if done < count then some done else none
      | _ => none
  | _ => none

structure Represents (w : World ι) : Prop where
  pos : w.mod.currentPos ≤ auditBufSize
  copies : ∀ r count done, (w.reader r).pc = .copying count done → count ≤ auditBufSize
  held : w.mod.buffered <:+ w.accepted

theorem represents_initial : Represents (initial ι) where
  pos := Nat.zero_le _
  copies := by simp [initial]
  held := List.suffix_refl _

theorem represents_append (h : Represents w) (cur : Current) (n res : Int32) :
    Represents (appendStep w cur n res) := by
  have hcopies : ∀ r count done, ((appendStep w cur n res).reader r).pc = .copying count done →
      count ≤ auditBufSize := by
    intro r count done hpc
    rw [appendStep_reader] at hpc
    exact h.copies r count done hpc
  by_cases hroom : w.mod.currentPos < auditBufSize
  · refine ⟨?_, hcopies, ?_⟩
    · rw [appendStep_mod, modSyscallAudit_room hroom]
      exact hroom
    · obtain ⟨earlier, hearlier⟩ := h.held
      rw [appendStep_mod, buffered_append hroom, appendStep_accepted, if_pos hroom, ← hearlier,
        List.append_assoc]
      exact List.suffix_append _ _
  · refine ⟨?_, hcopies, ?_⟩
    · rw [appendStep_mod, modSyscallAudit_full hroom]
      exact h.pos
    · rw [appendStep_mod, modSyscallAudit_full hroom, appendStep_accepted, if_neg hroom]
      exact h.held

/-- An append to a full buffer is no step at all. -/
theorem appendStep_full (hfull : w.mod.currentPos = auditBufSize) (cur : Current)
    (n res : Int32) : appendStep w cur n res = w := by
  have hroom : ¬ w.mod.currentPos < auditBufSize := hfull.not_lt
  unfold appendStep
  rw [modSyscallAudit_full hroom, if_neg hroom]
  rfl

theorem slot_lt (h : Represents w) {a : Action ι} {k : ℕ} (hk : slot w a = some k) :
    k < auditBufSize := by
  cases a with
  | append cur n res =>
      simp only [slot, Option.ite_none_right_eq_some, Option.some.injEq] at hk
      obtain ⟨hroom, rfl⟩ := hk
      exact hroom
  | advance r =>
      simp only [slot] at hk
      cases hpc : (w.reader r).pc with
      | copying count done =>
          simp only [hpc, Option.ite_none_right_eq_some, Option.some.injEq] at hk
          obtain ⟨hlt, rfl⟩ := hk
          exact hlt.trans_le (h.copies r count done hpc)
      | _ => simp [hpc] at hk
  | call r type size reset => cases hk
  | fault r => cases hk
  | signal r => cases hk

theorem buffered_serials (hn : Numbered w) (h : Represents w) :
    w.mod.buffered.map SyscallBuf.serial = (List.range w.mod.currentPos).map fun k =>
      w.mod.serial - UInt32.ofNat w.mod.currentPos + UInt32.ofNat k := by
  obtain ⟨earlier, hearlier⟩ := h.held
  have hserial : w.mod.serial - UInt32.ofNat w.mod.currentPos = UInt32.ofNat earlier.length := by
    rw [hn.next, ← hearlier, List.length_append, buffered_length, UInt32.ofNat_add,
      UInt32.add_sub_cancel]
  have hall := hn.accepted
  rw [← hearlier, List.map_append, List.length_append, buffered_length, List.range_add,
    List.map_append, List.map_map] at hall
  have hlast := (List.append_inj hall (by simp)).2
  rw [hlast, hserial]
  apply List.map_congr_left
  intro k _
  exact UInt32.ofNat_add ..

variable [DecidableEq ι]

theorem Represents.setReader (h : Represents w) (r : ι) {rd : Reader}
    (hrd : ∀ count done, rd.pc = .copying count done → count ≤ auditBufSize) :
    Represents (w.setReader r rd) where
  pos := h.pos
  copies := forall_setReader
    (P := fun rd => ∀ count done, rd.pc = .copying count done → count ≤ auditBufSize) hrd
    fun r' _ => h.copies r'
  held := h.held

theorem represents_finish (h : Represents w) (r : ι) (ret : ℕ) : Represents (w.finish r ret) where
  pos := Nat.zero_le _
  copies := by
    have hout : Represents (w.setReader r { w.reader r with
        pc := .out, wait := { (w.reader r).wait with signal := false } }) :=
      h.setReader r (by simp)
    exact hout.copies
  held := List.nil_suffix

theorem represents_step {a : Action ι} (h : Represents w) (hs : step w a = some w') :
    Represents w' := by
  cases a with
  | append cur n res =>
      cases hs
      exact represents_append h cur n res
  | call r type size reset =>
      rcases (callStep_eq_some hs).2 with rfl | rfl
      · exact h
      · exact h.setReader r (by simp)
  | advance r =>
      cases readerStep_of_eq_some hs with
      | wait wait' hpc hw hstay => exact h.setReader r fun count done => h.copies r count done
      | pass wait' interrupted hpc hw hleft => exact h.setReader r (by simp)
      | begin hpc =>
          apply h.setReader
          rintro _ _ ⟨⟩
          exact h.pos
      | copy count done hpc hlt =>
          apply h.setReader
          rintro _ _ ⟨⟩
          exact h.copies r count done hpc
      | copied count done hpc hge => exact h.setReader r (by simp)
      | count hpc => exact h.setReader r (by simp)
      | reset ret hpc => exact represents_finish h r ret
  | fault r =>
      obtain ⟨count, done, hpc, rfl⟩ := copyFault_eq_some hs
      exact h.setReader r (by simp)
  | signal r =>
      cases hs
      exact h.setReader r fun count done => h.copies r count done

theorem represents_exec {as : List (Action ι)} (h : exec step (initial ι) as = some w) :
    Represents w :=
  exec_invariant (fun _ _ _ hI hs => represents_step hI hs) represents_initial h

theorem auditBuf_of_slot {a : Action ι} (hs : step w a = some w') {k : ℕ}
    (hk : slot w a ≠ some k) : w'.mod.auditBuf k = w.mod.auditBuf k := by
  cases a with
  | append cur n res =>
      cases hs
      by_cases hroom : w.mod.currentPos < auditBufSize
      · have hne : k ≠ w.mod.currentPos := by
          rintro rfl
          exact hk (if_pos hroom)
        rw [appendStep_mod, modSyscallAudit_room hroom]
        exact Function.update_of_ne hne ..
      · rw [appendStep_mod, modSyscallAudit_full hroom]
  | call r type size reset =>
      rcases (callStep_eq_some hs).2 with rfl | rfl
      · rfl
      · rfl
  | advance r => cases readerStep_of_eq_some hs <;> rfl
  | fault r =>
      obtain ⟨_, _, _, rfl⟩ := copyFault_eq_some hs
      rfl
  | signal r =>
      cases hs
      rfl

/-- A reader's buffer grows by the record in the slot of the step, or it is cleared. -/
theorem usBuf_of_slot {a : Action ι} (hs : step w a = some w') (r : ι) :
    (w'.reader r).usBuf = (w.reader r).usBuf ∨ (w'.reader r).usBuf = [] ∨
      ∃ k, slot w a = some k ∧ (w'.reader r).usBuf = (w.reader r).usBuf ++ [w.mod.auditBuf k] := by
  have hset : ∀ (r' : ι) (rd : Reader), rd.usBuf = (w.reader r').usBuf →
      ((w.setReader r' rd).reader r).usBuf = (w.reader r).usBuf := by
    intro r' rd hrd
    by_cases hr : r = r'
    · subst hr
      rw [reader_setReader_self, hrd]
    · rw [reader_setReader_of_ne w hr]
  cases a with
  | append cur n res =>
      cases hs
      exact Or.inl (by rw [appendStep_reader])
  | call r' type size reset =>
      rcases (callStep_eq_some hs).2 with rfl | rfl
      · exact Or.inl rfl
      · by_cases hr : r = r'
        · subst hr
          exact Or.inr (Or.inl (by rw [reader_setReader_self]))
        · exact Or.inl (by rw [reader_setReader_of_ne w hr])
  | advance r' =>
      cases readerStep_of_eq_some hs with
      | copy count done hpc hlt =>
          by_cases hr : r = r'
          · subst hr
            exact Or.inr (Or.inr ⟨done, by simp [slot, hpc, hlt], by rw [reader_setReader_self]⟩)
          · exact Or.inl (by rw [reader_setReader_of_ne w hr])
      | _ => exact Or.inl (hset r' _ rfl)
  | fault r' =>
      obtain ⟨_, _, _, rfl⟩ := copyFault_eq_some hs
      exact Or.inl (hset r' _ rfl)
  | signal r' =>
      cases hs
      exact Or.inl (hset r' _ rfl)

/-- In every state of every run: the bounds, the content of the buffer with its serial numbers,
the slot each next step works on, and the append that finds the buffer full. -/
theorem audit_buffer_representation {as : List (Action ι)}
    (h : exec step (initial ι) as = some w) :
    w.mod.currentPos ≤ auditBufSize ∧
      w.mod.buffered <:+ w.accepted ∧
      w.mod.buffered.map SyscallBuf.serial = (List.range w.mod.currentPos).map (fun k =>
        w.mod.serial - UInt32.ofNat w.mod.currentPos + UInt32.ofNat k) ∧
      (∀ a w', step w a = some w' →
        (∀ k, slot w a = some k → k < auditBufSize) ∧
        (∀ k, slot w a ≠ some k → w'.mod.auditBuf k = w.mod.auditBuf k) ∧
        ∀ r, (w'.reader r).usBuf = (w.reader r).usBuf ∨ (w'.reader r).usBuf = [] ∨
          ∃ k, slot w a = some k ∧
            (w'.reader r).usBuf = (w.reader r).usBuf ++ [w.mod.auditBuf k]) ∧
      (w.mod.currentPos = auditBufSize →
        ∀ cur n res, step w (.append cur n res) = some w) := by
  have hrep := represents_exec h
  refine ⟨hrep.pos, hrep.held, buffered_serials (numbered_exec h) hrep, fun a w' hs => ?_,
    fun hfull cur n res => ?_⟩
  · exact ⟨fun k hk => slot_lt hrep hk, fun k hk => auditBuf_of_slot hs hk, usBuf_of_slot hs⟩
  · exact congrArg some (appendStep_full hfull cur n res)

theorem audit_buffer_representation_drained :
    ∃ w, exec step (initial Unit) (interruptedDrain ++ [.append someTask 5 0]) = some w ∧
      w.mod.currentPos = 1 ∧ w.mod.buffered.map SyscallBuf.serial = [1] ∧
      w.mod.buffered <:+ w.accepted := by
  obtain ⟨w, hw, hc⟩ : ∃ w,
      exec step (initial Unit) (interruptedDrain ++ [.append someTask 5 0]) = some w ∧
      (w.mod.currentPos == 1 && w.mod.buffered.map SyscallBuf.serial == [1]) = true :=
    exists_of_exec_any _ _ _ (by decide +kernel)
  simp only [Bool.and_eq_true, beq_iff_eq] at hc
  exact ⟨w, hw, hc.1, hc.2, (audit_buffer_representation hw).2.1⟩

end Audit
