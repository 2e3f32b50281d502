import LinuxDriver.AuditBuffer

/-!
# The size of the user's buffer

A drain clears `us_buf_size` bytes of the user's buffer, but the length of its copy is
`current_pos` records, whatever the size. It respects the buffer as long as the records fit both
when it evaluates `current_pos` for the copy and when it evaluates it for its result; otherwise
it can go on to store or to report more than there is room for.
-/

open Interleaving

namespace Audit

variable {ι : Type*} {w w' : World ι}

/-- `sizeof(struct syscall_buf)`: nine fields of four bytes and `comm`. -/
def sizeofSyscallBuf : ℕ := 9 * 4 + commSize

/-- How many bytes of the user's buffer a call has stored into: the cleared ones, and the
records copied over them. -/
def Reader.stored (rd : Reader) : ℕ :=
  max rd.usBufSize.toNat (rd.usBuf.length * sizeofSyscallBuf)

structure Reader.Within (rd : Reader) : Prop where
  stored : rd.stored ≤ rd.usBufSize.toNat
  result : ∀ ret, rd.pc = .reset ret → ret * sizeofSyscallBuf ≤ rd.usBufSize.toNat

/-- Where a drain evaluates `current_pos`, so many records fit in its buffer. -/
def Fits (w : World ι) : Action ι → Prop
  | .advance r => (w.reader r).pc = .copyBegin ∨ (w.reader r).pc = .readCount →
      w.mod.currentPos * sizeofSyscallBuf ≤ (w.reader r).usBufSize.toNat
  | _ => True

structure Reader.Confined (limit : UInt16 → ℕ) (rd : Reader) : Prop where
  copied : rd.usBuf.length * sizeofSyscallBuf ≤ limit rd.usBufSize
  start : rd.pc = .waiting ∨ rd.pc = .copyBegin → rd.usBuf = []
  copying : ∀ count done, rd.pc = .copying count done →
    count * sizeofSyscallBuf ≤ limit rd.usBufSize ∧ rd.usBuf.length = done
  result : ∀ ret, rd.pc = .reset ret → ret * sizeofSyscallBuf ≤ limit rd.usBufSize

theorem Reader.Confined.within {limit : UInt16 → ℕ} {rd : Reader} (h : rd.Confined limit)
    (hlimit : limit rd.usBufSize ≤ rd.usBufSize.toNat) : rd.Within where
  stored := Nat.max_le.2 ⟨Nat.le_refl _, h.copied.trans hlimit⟩
  result ret hpc := (h.result ret hpc).trans hlimit

theorem confined_initial (limit : UInt16 → ℕ) (r : ι) :
    ((initial ι).reader r).Confined limit where
  copied := by simp [initial]
  start _ := rfl
  copying := by simp [initial]
  result := by simp [initial]

theorem Reader.Confined.congr {limit : UInt16 → ℕ} {rd rd' : Reader} (h : rd.Confined limit)
    (hpc : rd'.pc = rd.pc) (hbuf : rd'.usBuf = rd.usBuf) (hsize : rd'.usBufSize = rd.usBufSize) :
    rd'.Confined limit := by
  constructor
  · rw [hbuf, hsize]
    exact h.copied
  · rw [hpc, hbuf]
    exact h.start
  · rw [hpc, hbuf, hsize]
    exact h.copying
  · rw [hpc, hsize]
    exact h.result

variable [DecidableEq ι]

theorem confined_setReader {limit : UInt16 → ℕ} (h : ∀ r, (w.reader r).Confined limit) {r : ι}
    {rd : Reader} (hrd : rd.Confined limit) (r' : ι) :
    ((w.setReader r rd).reader r').Confined limit :=
  forall_setReader hrd (fun r' _ => h r') r'

theorem confined_advance {limit : UInt16 → ℕ} (h : ∀ r, (w.reader r).Confined limit) {r : ι}
    (hfit : (w.reader r).pc = .copyBegin ∨ (w.reader r).pc = .readCount →
      w.mod.currentPos * sizeofSyscallBuf ≤ limit (w.reader r).usBufSize)
    (hs : modSysAudit w r = some w') : ∀ r', (w'.reader r').Confined limit := by
  have hr := h r
  cases readerStep_of_eq_some hs with
  | wait wait' hpc hw hstay => exact confined_setReader h (hr.congr rfl rfl rfl)
  | pass wait' interrupted hpc hw hleft =>
      have hempty := hr.start (Or.inl hpc)
      exact confined_setReader h ⟨hr.copied, fun _ => hempty, by simp, by simp⟩
  | begin hpc =>
      have hempty := hr.start (Or.inr hpc)
      apply confined_setReader h
      refine ⟨hr.copied, by simp, ?_, by simp⟩
      rintro _ _ ⟨⟩
      exact ⟨hfit (Or.inl hpc), by simp [hempty]⟩
  | copy count done hpc hlt =>
      obtain ⟨hcount, hdone⟩ := hr.copying count done hpc
      have hlength : ((w.reader r).usBuf ++ [w.mod.auditBuf done]).length = done + 1 := by
        rw [List.length_append, hdone, List.length_singleton]
      apply confined_setReader h
      refine ⟨?_, by simp, ?_, by simp⟩
      · rw [hlength]
        exact (Nat.mul_le_mul_right _ hlt).trans hcount
      · rintro _ _ ⟨⟩
        exact ⟨hcount, hlength⟩
  | copied count done hpc hge =>
      exact confined_setReader h ⟨hr.copied, by simp, by simp, by simp⟩
  | count hpc =>
      apply confined_setReader h
      refine ⟨hr.copied, by simp, by simp, ?_⟩
      rintro _ ⟨⟩
      exact hfit (Or.inr hpc)
  | reset ret hpc =>
      have hout : Reader.Confined limit { w.reader r with
          pc := .out, wait := { (w.reader r).wait with signal := false } } :=
        ⟨hr.copied, by simp, by simp, by simp⟩
      exact confined_setReader (w := w) h hout

theorem confined_step {limit : UInt16 → ℕ} {a : Action ι} (h : ∀ r, (w.reader r).Confined limit)
    (hfit : ∀ r, a = .advance r → (w.reader r).pc = .copyBegin ∨ (w.reader r).pc = .readCount →
      w.mod.currentPos * sizeofSyscallBuf ≤ limit (w.reader r).usBufSize)
    (hs : step w a = some w') : ∀ r, (w'.reader r).Confined limit := by
  cases a with
  | append cur n res =>
      cases hs
      intro r
      rw [appendStep_reader]
      exact (h r).congr rfl rfl rfl
  | call r type size reset =>
      rcases (callStep_eq_some hs).2 with rfl | rfl
      · exact h
      · exact confined_setReader h ⟨by simp, fun _ => rfl, by simp, by simp⟩
  | advance r => exact confined_advance h (hfit r rfl) hs
  | fault r =>
      obtain ⟨_, _, _, rfl⟩ := copyFault_eq_some hs
      exact confined_setReader h ⟨(h r).copied, by simp, by simp, by simp⟩
  | signal r =>
      cases hs
      exact confined_setReader h ((h r).congr rfl rfl rfl)

theorem confined_of_fits {as : List (Action ι)} (hok : Meets step Fits (initial ι) as)
    (h : exec step (initial ι) as = some w) (r : ι) : (w.reader r).Confined UInt16.toNat := by
  have hinv : ∀ r, (w.reader r).Confined UInt16.toNat := by
    refine exec_invariant_of_meets (I := fun v => ∀ r, (v.reader r).Confined UInt16.toNat)
      (fun v a v' hI ha hs => confined_step hI ?_ hs) (confined_initial _) hok h
    rintro r rfl
    exact ha
  exact hinv r

/-- Whatever its size, no call stores or reports more than a full `audit_buf`. -/
theorem confined_full {as : List (Action ι)} (h : exec step (initial ι) as = some w) (r : ι) :
    (w.reader r).Confined fun _ => auditBufSize * sizeofSyscallBuf := by
  have hinv : Represents w ∧
      ∀ r, (w.reader r).Confined fun _ => auditBufSize * sizeofSyscallBuf := by
    refine exec_invariant (I := fun v => Represents v ∧
        ∀ r, (v.reader r).Confined fun _ => auditBufSize * sizeofSyscallBuf)
      (fun v a v' hI hs => ⟨represents_step hI.1 hs, confined_step hI.2 ?_ hs⟩)
      ⟨represents_initial, confined_initial _⟩ h
    exact fun _ _ _ => Nat.mul_le_mul_right _ hI.1.pos
  exact hinv.2 r

/-! ## Records that do not fit -/

theorem exists_copied {r : ι} {count done : ℕ} (hpc : (w.reader r).pc = .copying count done) :
    ∃ bs v, exec step w bs = some v ∧ (v.reader r).usBufSize = (w.reader r).usBufSize ∧
      (v.reader r).usBuf.length = (w.reader r).usBuf.length + (count - done) := by
  induction hleft : count - done generalizing w done with
  | zero => exact ⟨[], w, rfl, rfl, rfl⟩
  | succ n ih =>
      have hlt : done < count := by omega
      have hstep : step w (.advance r) = some (w.setReader r { w.reader r with
          pc := .copying count (done + 1)
          usBuf := (w.reader r).usBuf ++ [w.mod.auditBuf done] }) := by
        simp only [step, modSysAudit, hpc, if_pos hlt]
      have hpc' : ((w.setReader r { w.reader r with
          pc := .copying count (done + 1)
          usBuf := (w.reader r).usBuf ++ [w.mod.auditBuf done] }).reader r).pc =
            .copying count (done + 1) := by rw [reader_setReader_self]
      obtain ⟨bs, v, hexec, hsize, hlength⟩ := ih hpc' (by omega)
      refine ⟨.advance r :: bs, v, ?_, ?_, ?_⟩
      · rw [exec_cons hstep]
        exact hexec
      · rw [hsize, reader_setReader_self]
      · rw [hlength, reader_setReader_self, List.length_append, List.length_singleton]
        omega

theorem not_fits_breaks {a : Action ι} (hbad : ¬ Fits w a) (hs : step w a = some w') :
    ∃ bs v, exec step w' bs = some v ∧ ∃ r, ¬ (v.reader r).Within := by
  cases a with
  | advance r =>
      simp only [Fits, Classical.not_imp, Nat.not_le] at hbad
      obtain ⟨hpc | hpc, hlarge⟩ := hbad
      · have hw' : w' = w.setReader r { w.reader r with pc := .copying w.mod.currentPos 0 } := by
          simp only [step, modSysAudit, hpc, Option.some.injEq] at hs
          exact hs.symm
        have hrd : w'.reader r = { w.reader r with pc := .copying w.mod.currentPos 0 } := by
          rw [hw', reader_setReader_self]
        have hcopying : (w'.reader r).pc = .copying w.mod.currentPos 0 := by rw [hrd]
        obtain ⟨bs, v, hexec, hsize, hlength⟩ := exists_copied hcopying
        refine ⟨bs, v, hexec, r, fun hwithin => ?_⟩
        have hstored := (Nat.max_le.1 hwithin.stored).2
        rw [hlength, hsize, hrd, Nat.sub_zero, Nat.add_mul] at hstored
        dsimp only at hstored
        omega
      · have hw' : w' = w.setReader r { w.reader r with pc := .reset w.mod.currentPos } := by
          simp only [step, modSysAudit, hpc, Option.some.injEq] at hs
          exact hs.symm
        have hrd : w'.reader r = { w.reader r with pc := .reset w.mod.currentPos } := by
          rw [hw', reader_setReader_self]
        refine ⟨[], w', rfl, r, fun hwithin => ?_⟩
        have hresult := hwithin.result w.mod.currentPos (by rw [hrd])
        rw [hrd] at hresult
        exact absurd hresult (Nat.not_le.2 hlarge)
  | append cur n res => exact absurd trivial hbad
  | call r type size reset => exact absurd trivial hbad
  | fault r => exact absurd trivial hbad
  | signal r => exact absurd trivial hbad

omit [DecidableEq ι] in
theorem appendStep_pc (w : World ι) (cur : Current) (n res : Int32) (r : ι) :
    ((appendStep w cur n res).reader r).pc = (w.reader r).pc := by
  rw [appendStep_reader]

theorem exists_filled (k : ℕ) (hk : k ≤ auditBufSize) : ∃ as, ∃ w : World ι,
    exec step (initial ι) as = some w ∧ w.mod.currentPos = k ∧ ∀ r, (w.reader r).pc = .out := by
  induction k with
  | zero => exact ⟨[], initial ι, rfl, rfl, fun _ => rfl⟩
  | succ k ih =>
      obtain ⟨as, w, hexec, hpos, hout⟩ := ih (by omega)
      have hroom : w.mod.currentPos < auditBufSize := by omega
      refine ⟨as ++ [.append someTask 5 0], appendStep w someTask 5 0, ?_, ?_, fun r => ?_⟩
      · exact exec_trans hexec rfl
      · rw [appendStep_mod, modSyscallAudit_room hroom, hpos]
      · rw [appendStep_pc, hout r]

/-- A drain of a full buffer whose copy faults at once still reports the whole buffer. -/
theorem exists_reported (r : ι) (size : UInt16) : ∃ as, ∃ w : World ι,
    exec step (initial ι) as = some w ∧ (w.reader r).usBufSize = size ∧
      (w.reader r).pc = .reset auditBufSize := by
  obtain ⟨as, w, hexec, hpos, hout⟩ := exists_filled (ι := ι) auditBufSize (Nat.le_refl _)
  have hnear : w.mod.nearFull = true := by
    rw [Module.nearFull, hpos]
    rfl
  have hdrain : ∃ v, exec step w [.call r 0 size 1, .advance r, .advance r, .advance r, .fault r,
      .advance r] = some v ∧ (v.reader r).usBufSize = size ∧
        (v.reader r).pc = .reset auditBufSize := by
    simp [exec, step, callStep, hout r, modSysAudit, copyFault, World.setReader, hnear, hpos,
      WaitQueue.Waiter.advance, WaitQueue.Waiter.enter, WaitQueue.Waiter.leave]
  obtain ⟨v, hexec', hsize, hpc⟩ := hdrain
  exact ⟨_, v, exec_trans hexec hexec', hsize, hpc⟩

theorem within_size_iff (r : ι) (size : UInt16) :
    (∀ as w, exec step (initial ι) as = some w → (w.reader r).usBufSize = size →
      (w.reader r).Within) ↔ auditBufSize * sizeofSyscallBuf ≤ size.toNat := by
  constructor
  · intro hall
    obtain ⟨as, w, hexec, hsize, hpc⟩ := exists_reported r size
    have hresult := (hall as w hexec hsize).result auditBufSize hpc
    rwa [hsize] at hresult
  · rintro hle as w hexec rfl
    exact (confined_full hexec r).within hle

/-- A run in which the records fit wherever a drain evaluates `current_pos` stays within the
users' buffers in every state, and from a step at which they do not fit there is a way on to a
state that does not. Calls of one size stay within their buffers in all runs just when a full
`audit_buf` fits in that size. -/
theorem audit_drain_respects_buffer_iff :
    (∀ as, ∀ w : World ι, exec step (initial ι) as = some w →
      (Meets step Fits (initial ι) as → ∀ r, (w.reader r).Within) ∧
      ∀ a w', step w a = some w' → ¬ Fits w a →
        ∃ bs v, exec step w' bs = some v ∧ ∃ r, ¬ (v.reader r).Within) ∧
    ∀ (r : ι) (size : UInt16), (∀ as w, exec step (initial ι) as = some w →
      (w.reader r).usBufSize = size → (w.reader r).Within) ↔
        auditBufSize * sizeofSyscallBuf ≤ size.toNat := by
  refine ⟨fun as w h => ⟨fun hok r => ?_, fun a w' hs hbad => not_fits_breaks hbad hs⟩,
    within_size_iff⟩
  exact (confined_of_fits hok h r).within (Nat.le_refl _)

/-- The interrupted drain has the room of a full `audit_buf`. -/
theorem audit_drain_respects_interrupted :
    ∃ w, exec step (initial Unit) interruptedDrain = some w ∧
      (w.reader ()).usBuf.length = 1 ∧ (w.reader ()).Within := by
  obtain ⟨w, hw, hc⟩ : ∃ w, exec step (initial Unit) interruptedDrain = some w ∧
      ((w.reader ()).usBuf.length == 1 && (w.reader ()).usBufSize == 5200) = true :=
    exists_of_exec_any _ _ _ (by decide +kernel)
  simp only [Bool.and_eq_true, beq_iff_eq] at hc
  exact ⟨w, hw, hc.1, (audit_drain_respects_buffer_iff.2 () 5200).2 (by decide) _ w hw hc.2⟩

def shortDrain : List (Action Unit) :=
  [.append someTask 5 0, .call () 0 51 1, .advance (), .advance (), .signal ()] ++
    List.replicate 5 (.advance ())

theorem audit_drain_overruns :
    ∃ w, exec step (initial Unit) shortDrain = some w ∧ (w.reader ()).usBufSize = 51 ∧
      (w.reader ()).stored = 52 ∧ (w.reader ()).pc = .reset 1 ∧ ¬ (w.reader ()).Within := by
  obtain ⟨w, hw, hc⟩ : ∃ w, exec step (initial Unit) shortDrain = some w ∧
      ((w.reader ()).usBufSize == 51 && (w.reader ()).stored == 52 &&
        (w.reader ()).pc == .reset 1) = true := exists_of_exec_any _ _ _ (by decide +kernel)
  simp only [Bool.and_eq_true, beq_iff_eq] at hc
  obtain ⟨⟨hsize, hstored⟩, hpc⟩ := hc
  refine ⟨w, hw, hsize, hstored, hpc, fun hwithin => ?_⟩
  have hle := hwithin.stored
  rw [hstored, hsize] at hle
  exact absurd hle (by decide)

end Audit
