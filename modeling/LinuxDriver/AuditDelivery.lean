import LinuxDriver.AuditModule
import Mathlib.Data.Fintype.Basic

/-!
# Exactly-once delivery of audit records

A drain evaluates `current_pos` for its copy, then again for its result, and then sets it to
0. Records that arrive between the first and the last of these moments are thrown away, and a
second drain that starts in between hands out the same records again. A run in which nothing
of this happens delivers every record exactly once, in serial order and with the right counts;
the first step that breaks the rule can be continued, by nothing but the open calls coming to
their end, to a state in which a record is lost or duplicated.
-/

open WaitQueue Interleaving

namespace Audit

variable {ι : Type*} {w w' : World ι}

/-- Between the evaluation of `current_pos` for the copy and the assignment of 0. -/
def ReaderPc.inWindow : ReaderPc → Bool
  | .copying _ _ | .readCount | .reset _ => true
  | _ => false

def ReaderPc.unfinished : ReaderPc → Bool
  | .copying count done => decide (done < count)
  | _ => false

/-- An append is stored while no drain is in its window, a drain starts its copy while no
other one is in its window or nothing is buffered, and no copy is cut short. -/
def Undisturbed (w : World ι) : Action ι → Prop
  | .append _ _ _ => w.mod.currentPos < auditBufSize → ∀ r, (w.reader r).pc.inWindow = false
  | .advance r =>
      (w.reader r).pc = .copyBegin →
        w.mod.currentPos = 0 ∨ ∀ r', (w.reader r').pc.inWindow = false
  | .fault r => (w.reader r).pc.unfinished = false
  | _ => True

/-- Every stored record is in exactly one finished drain or still buffered, the drains give
the records in serial order, and each returns the number of records it copied. -/
structure ExactlyOnce (w : World ι) : Prop where
  conserved : w.accepted.Perm (w.delivered ++ w.mod.buffered)
  serialOrder : w.delivered.map SyscallBuf.serial =
    (List.range w.delivered.length).map UInt32.ofNat
  counts : ∀ d ∈ w.drains, d.count = d.records.length

/-! ## Serial numbers -/

/-- Accepted records are numbered consecutively, modulo the width of `serial`. -/
structure Numbered (w : World ι) : Prop where
  accepted : w.accepted.map SyscallBuf.serial = (List.range w.accepted.length).map UInt32.ofNat
  next : w.mod.serial = UInt32.ofNat w.accepted.length

theorem Numbered.congr (h : Numbered w) (ha : w'.accepted = w.accepted)
    (hs : w'.mod.serial = w.mod.serial) : Numbered w' := by
  constructor
  · rw [ha]
    exact h.accepted
  · rw [ha, hs]
    exact h.next

theorem numbered_initial : Numbered (initial ι) := ⟨rfl, rfl⟩

theorem numbered_append (h : Numbered w) (cur : Current) (n res : Int32) :
    Numbered (appendStep w cur n res) := by
  by_cases hroom : w.mod.currentPos < auditBufSize
  · have hacc : (appendStep w cur n res).accepted = w.accepted ++ [w.mod.record cur n res] := by
      rw [appendStep_accepted, if_pos hroom]
    constructor
    · rw [hacc, List.map_append, h.accepted, List.length_append, List.length_singleton,
        List.range_succ, List.map_append]
      simp [Module.record, h.next]
    · rw [hacc, appendStep_mod, modSyscallAudit_room hroom, List.length_append,
        List.length_singleton, UInt32.ofNat_add, h.next]
      rfl
  · refine h.congr ?_ ?_
    · rw [appendStep_accepted, if_neg hroom]
    · rw [appendStep_mod, modSyscallAudit_full hroom]

theorem numbered_step [DecidableEq ι] {a : Action ι} (h : Numbered w)
    (hs : step w a = some w') : Numbered w' := by
  cases a with
  | append cur n res =>
      cases hs
      exact numbered_append h cur n res
  | call r type size reset =>
      rcases (callStep_eq_some hs).2 with rfl | rfl
      · exact h
      · exact h.congr rfl rfl
  | advance r =>
      cases readerStep_of_eq_some hs <;> exact h.congr rfl rfl
  | fault r =>
      obtain ⟨_, _, _, rfl⟩ := copyFault_eq_some hs
      exact h.congr rfl rfl
  | signal r =>
      cases hs
      exact h.congr rfl rfl

/-! ## Undisturbed runs -/

/-- What a reader's program counter says about its copy while nothing disturbs it. -/
def Reader.Consistent (m : Module) (rd : Reader) : Prop :=
  match rd.pc with
  | .out => True
  | .waiting | .copyBegin => rd.usBuf = []
  | .copying count done =>
      count = m.currentPos ∧ done ≤ count ∧ rd.usBuf = (List.range done).map m.auditBuf
  | .readCount => rd.usBuf = m.buffered
  | .reset ret => ret = m.currentPos ∧ rd.usBuf = m.buffered

structure Delivery (w : World ι) : Prop where
  consistent : ∀ r, (w.reader r).Consistent w.mod
  alone : 0 < w.mod.currentPos → ∀ r r', (w.reader r).pc.inWindow = true →
    (w.reader r').pc.inWindow = true → r = r'
  conserved : w.accepted = w.delivered ++ w.mod.buffered
  counts : ∀ d ∈ w.drains, d.count = d.records.length

theorem Reader.Consistent.congr {m m' : Module} {rd rd' : Reader} (h : rd.Consistent m)
    (hpc : rd'.pc = rd.pc) (hbuf : rd'.usBuf = rd.usBuf)
    (hm : m' = m ∨ rd.pc.inWindow = false) : rd'.Consistent m' := by
  rcases hm with rfl | hout
  · simpa only [Reader.Consistent, hpc, hbuf] using h
  · cases hp : rd.pc <;> simp_all [Reader.Consistent, ReaderPc.inWindow]

theorem delivery_append (h : Delivery w) (cur : Current) (n res : Int32)
    (hok : Undisturbed w (.append cur n res)) : Delivery (appendStep w cur n res) := by
  have hpc : ∀ r, ((appendStep w cur n res).reader r).pc = (w.reader r).pc := fun r => by
    rw [appendStep_reader]
  by_cases hroom : w.mod.currentPos < auditBufSize
  · have hout := hok hroom
    refine ⟨fun r => ?_, fun _ r r' hr _ => ?_, ?_, ?_⟩
    · exact (h.consistent r).congr (hpc r) (by rw [appendStep_reader]) (Or.inr (hout r))
    · rw [hpc, hout r] at hr
      contradiction
    · rw [appendStep_accepted, if_pos hroom, appendStep_mod, buffered_append hroom, h.conserved,
        List.append_assoc]
      simp only [World.delivered, appendStep_drains]
    · simpa only [appendStep_drains] using h.counts
  · have hmod : (appendStep w cur n res).mod = w.mod := by
      rw [appendStep_mod, modSyscallAudit_full hroom]
    refine ⟨fun r => ?_, fun hpos r r' hr hr' => ?_, ?_, ?_⟩
    · exact (h.consistent r).congr (hpc r) (by rw [appendStep_reader]) (Or.inl hmod)
    · rw [hpc] at hr hr'
      rw [hmod] at hpos
      exact h.alone hpos r r' hr hr'
    · rw [appendStep_accepted, if_neg hroom, hmod, h.conserved]
      simp only [World.delivered, appendStep_drains]
    · simpa only [appendStep_drains] using h.counts

theorem delivery_initial : Delivery (initial ι) :=
  ⟨fun _ => trivial, fun hpos => absurd hpos (Nat.lt_irrefl 0), rfl, by simp [initial]⟩

theorem Delivery.exactlyOnce (h : Delivery w) (hn : Numbered w) : ExactlyOnce w := by
  refine ⟨h.conserved ▸ List.Perm.refl _, ?_, h.counts⟩
  have hpre : w.delivered <+: w.accepted := ⟨w.mod.buffered, h.conserved.symm⟩
  obtain ⟨rest, hrest⟩ := hpre
  have hser := hn.accepted
  rw [← hrest, List.map_append, List.length_append, List.range_add, List.map_append] at hser
  exact (List.append_inj hser (by simp)).1

def Reader.total (rd : Reader) : ℕ :=
  match rd.pc with
  | .copying count done => rd.usBuf.length + (count - done)
  | _ => rd.usBuf.length

/-- Losing or duplicating records shows in the numbers alone. -/
theorem not_exactlyOnce_of_length (h : w.delivered.length + w.mod.currentPos ≠
    w.accepted.length) : ¬ ExactlyOnce w := by
  intro he
  have hl := he.conserved.length_eq
  rw [List.length_append, buffered_length] at hl
  exact h hl.symm

theorem Delivery.length_eq (h : Delivery w) :
    w.accepted.length = w.delivered.length + w.mod.currentPos := by
  rw [h.conserved, List.length_append, buffered_length]

/-- An undisturbed reader in its window hands out what the buffer holds. -/
theorem Delivery.total_eq {r : ι} (h : Delivery w) (hin : (w.reader r).pc.inWindow = true) :
    (w.reader r).total = w.mod.currentPos := by
  have hcons := h.consistent r
  cases hpc : (w.reader r).pc with
  | copying count done =>
      simp only [Reader.Consistent, hpc] at hcons
      simp only [Reader.total, hpc, hcons.2.2, List.length_map, List.length_range]
      omega
  | readCount =>
      simp only [Reader.Consistent, hpc] at hcons
      simp only [Reader.total, hpc, hcons, buffered_length]
  | reset ret =>
      simp only [Reader.Consistent, hpc] at hcons
      simp only [Reader.total, hpc, hcons.2, buffered_length]
  | _ => simp [hpc, ReaderPc.inWindow] at hin

variable [DecidableEq ι]

/-- A reader that moves without touching the module data or the record of finished calls. -/
theorem Delivery.setReader {r : ι} {rd : Reader} (h : Delivery w) (hc : rd.Consistent w.mod)
    (hwin : 0 < w.mod.currentPos → rd.pc.inWindow = true → (w.reader r).pc.inWindow = true ∨
      ∀ r', (w.reader r').pc.inWindow = false) : Delivery (w.setReader r rd) := by
  refine ⟨?_, fun hpos a b ha hb => ?_, h.conserved, h.counts⟩
  · exact forall_setReader (P := Reader.Consistent w.mod) hc fun r' _ => h.consistent r'
  · change 0 < w.mod.currentPos at hpos
    -- who is in the window now was there before, or nobody else was
    have hold : ∀ c, ((w.setReader r rd).reader c).pc.inWindow = true →
        (w.reader c).pc.inWindow = true ∨
          c = r ∧ ∀ r', (w.reader r').pc.inWindow = false := by
      intro c hcw
      by_cases hcr : c = r
      · subst c
        rw [reader_setReader_self] at hcw
        rcases hwin hpos hcw with hw | hw
        · exact Or.inl hw
        · exact Or.inr ⟨rfl, hw⟩
      · rw [reader_setReader_of_ne w hcr] at hcw
        exact Or.inl hcw
    rcases hold a ha with ha' | ⟨rfl, hnone⟩ <;> rcases hold b hb with hb' | ⟨rfl, hnone'⟩
    · exact h.alone hpos a b ha' hb'
    · rw [hnone' a] at ha'
      contradiction
    · rw [hnone b] at hb'
      contradiction
    · rfl

/-- The end of a drain: what was buffered is handed out, and nobody else was copying it. -/
theorem delivery_reset {r : ι} {ret : ℕ} (h : Delivery w)
    (hpc : (w.reader r).pc = .reset ret) :
    Delivery (w.finish r ret) := by
  have hcons := h.consistent r
  simp only [Reader.Consistent, hpc] at hcons
  obtain ⟨hret, hbuf⟩ := hcons
  have hin : (w.reader r).pc.inWindow = true := by rw [hpc]; rfl
  refine ⟨?_, fun hpos => absurd hpos (Nat.lt_irrefl 0), ?_, ?_⟩
  · apply forall_setReader (P := Reader.Consistent { w.mod with currentPos := 0 })
    · exact trivial
    · intro r' hr
      by_cases hzero : w.mod.currentPos = 0
      · exact (h.consistent r').congr rfl rfl (Or.inl (by rw [← hzero]))
      · refine (h.consistent r').congr rfl rfl (Or.inr ?_)
        by_contra hw
        exact hr (h.alone (Nat.pos_of_ne_zero hzero) r' r (by simpa using hw) hin)
  · simp [World.delivered, World.finish, World.setReader, Module.buffered, h.conserved, hbuf]
  · intro d hd
    rcases List.mem_append.1 hd with hd | hd
    · exact h.counts d hd
    · rw [List.mem_singleton] at hd
      subst d
      rw [hret, hbuf, buffered_length]

theorem delivery_advance {r : ι} (h : Delivery w) (hok : Undisturbed w (.advance r))
    (hs : modSysAudit w r = some w') : Delivery w' := by
  have hcons := h.consistent r
  cases readerStep_of_eq_some hs with
  | wait wait' hpc hw hstay =>
      refine h.setReader (hcons.congr rfl rfl (Or.inl rfl)) fun _ hin => ?_
      simp [hpc, ReaderPc.inWindow] at hin
  | pass wait' b hpc hw hleft =>
      simp only [Reader.Consistent, hpc] at hcons
      refine h.setReader (by simpa only [Reader.Consistent] using hcons) fun _ hin => ?_
      simp [ReaderPc.inWindow] at hin
  | begin hpc =>
      simp only [Reader.Consistent, hpc] at hcons
      refine h.setReader ⟨rfl, Nat.zero_le _, hcons⟩ fun hpos _ => Or.inr ?_
      exact (hok hpc).resolve_left hpos.ne'
  | copy count done hpc hlt =>
      simp only [Reader.Consistent, hpc] at hcons
      obtain ⟨hcount, hle, hbuf⟩ := hcons
      refine h.setReader ⟨hcount, hlt, ?_⟩ fun _ _ => Or.inl (by rw [hpc]; rfl)
      rw [hbuf, List.range_succ, List.map_append]
      rfl
  | copied count done hpc hge =>
      simp only [Reader.Consistent, hpc] at hcons
      obtain ⟨hcount, hle, hbuf⟩ := hcons
      refine h.setReader ?_ fun _ _ => Or.inl (by rw [hpc]; rfl)
      have hdone : done = w.mod.currentPos := by omega
      simpa only [Reader.Consistent, Module.buffered, ← hdone] using hbuf
  | count hpc =>
      simp only [Reader.Consistent, hpc] at hcons
      exact h.setReader ⟨rfl, hcons⟩ fun _ _ => Or.inl (by rw [hpc]; rfl)
  | reset ret hpc => exact delivery_reset h hpc

theorem delivery_step {a : Action ι} (h : Delivery w) (hok : Undisturbed w a)
    (hs : step w a = some w') : Delivery w' := by
  cases a with
  | append cur n res =>
      cases hs
      exact delivery_append h cur n res hok
  | call r type size reset =>
      rcases (callStep_eq_some hs).2 with rfl | rfl
      · exact h
      · exact h.setReader rfl fun _ hin => by simp [ReaderPc.inWindow] at hin
  | advance r => exact delivery_advance h hok hs
  | fault r =>
      obtain ⟨count, done, hpc, rfl⟩ := copyFault_eq_some hs
      have hcons := h.consistent r
      simp only [Reader.Consistent, hpc] at hcons
      obtain ⟨hcount, hle, hbuf⟩ := hcons
      simp only [Undisturbed, hpc, ReaderPc.unfinished, decide_eq_false_iff_not, not_lt] at hok
      refine h.setReader ?_ fun _ _ => Or.inl (by rw [hpc]; rfl)
      have hdone : done = w.mod.currentPos := by omega
      simpa only [Reader.Consistent, Module.buffered, ← hdone] using hbuf
  | signal r =>
      cases hs
      exact h.setReader ((h.consistent r).congr rfl rfl (Or.inl rfl)) fun _ hin => Or.inl hin

theorem delivery_exec {as : List (Action ι)} (h : exec step (initial ι) as = some w)
    (hok : Meets step Undisturbed (initial ι) as) : Delivery w :=
  exec_invariant_of_meets (fun _ _ _ hI ha hs => delivery_step hI ha hs) delivery_initial hok h

theorem numbered_exec {as : List (Action ι)} (h : exec step (initial ι) as = some w) :
    Numbered w :=
  exec_invariant (fun _ _ _ hI hs => numbered_step hI hs) numbered_initial h

/-! ## The first disturbed step -/

def ReaderPc.stepsLeft : ReaderPc → ℕ
  | .copying count done => count - done + 2
  | .readCount => 1
  | _ => 0

theorem exists_step_in_window {r : ι} (hin : (w.reader r).pc.inWindow = true)
    (hleft : (w.reader r).pc.stepsLeft ≠ 0) :
    ∃ rd, modSysAudit w r = some (w.setReader r rd) ∧ rd.pc.inWindow = true ∧
      rd.pc.stepsLeft + 1 = (w.reader r).pc.stepsLeft ∧ rd.total = (w.reader r).total := by
  cases hpc : (w.reader r).pc with
  | copying count done =>
      by_cases hlt : done < count
      · refine ⟨_, by simp only [modSysAudit, hpc, if_pos hlt]; rfl, rfl, ?_, ?_⟩
        · simp only [ReaderPc.stepsLeft]
          omega
        · simp only [Reader.total, hpc, List.length_append, List.length_singleton]
          omega
      · refine ⟨_, by simp only [modSysAudit, hpc, if_neg hlt]; rfl, rfl, ?_, ?_⟩
        · simp only [ReaderPc.stepsLeft]
          omega
        · simp only [Reader.total, hpc]
          omega
  | readCount =>
      refine ⟨_, by simp only [modSysAudit, hpc]; rfl, rfl, rfl, ?_⟩
      simp only [Reader.total, hpc]
  | _ => simp_all [ReaderPc.inWindow, ReaderPc.stepsLeft]

/-- A call in its window can be left to run to its end alone; it hands out what it has set
out to copy and empties the buffer. -/
theorem exists_finish (r : ι) (hin : (w.reader r).pc.inWindow = true) :
    ∃ bs v, exec step w bs = some v ∧ v.accepted = w.accepted ∧ v.mod.currentPos = 0 ∧
      v.delivered.length = w.delivered.length + (w.reader r).total ∧
      ∀ r' ≠ r, v.reader r' = w.reader r' := by
  induction hn : (w.reader r).pc.stepsLeft generalizing w with
  | zero =>
      obtain ⟨ret, hpc⟩ : ∃ ret, (w.reader r).pc = .reset ret := by
        cases hpc : (w.reader r).pc <;> simp_all [ReaderPc.inWindow, ReaderPc.stepsLeft]
      have hstep : step w (.advance r) = some (w.finish r ret) := by
        simp only [step, modSysAudit, hpc]
      refine ⟨[.advance r], w.finish r ret, exec_cons hstep [], rfl, rfl, ?_, fun r' hr => ?_⟩
      · simp [World.delivered, World.finish, World.setReader, Reader.total, hpc]
      · simp [World.finish, World.setReader, hr]
  | succ n ih =>
      obtain ⟨rd, hstep, hwin, hleft, htotal⟩ := exists_step_in_window hin (by omega)
      have hrd := reader_setReader_self w r rd
      obtain ⟨bs, v, hexec, hacc, hpos, hdel, hothers⟩ :=
        ih (w := w.setReader r rd) (by rw [hrd]; exact hwin) (by rw [hrd]; omega)
      refine ⟨.advance r :: bs, v, ?_, hacc, hpos, ?_, fun r' hr => ?_⟩
      · rw [exec_cons (show step w (.advance r) = _ from hstep)]
        exact hexec
      · rw [hdel, hrd, htotal]
        rfl
      · rw [hothers r' hr, reader_setReader_of_ne w hr]

theorem append_breaks (h : Delivery w) {cur : Current} {n res : Int32}
    (hbad : ¬ Undisturbed w (.append cur n res)) :
    ∃ bs v, exec step (appendStep w cur n res) bs = some v ∧ ¬ ExactlyOnce v := by
  simp only [Undisturbed, Classical.not_imp, not_forall, Bool.not_eq_false] at hbad
  obtain ⟨hroom, r, hin⟩ := hbad
  have hrd : ((appendStep w cur n res).reader r).pc = (w.reader r).pc ∧
      ((appendStep w cur n res).reader r).total = (w.reader r).total := by
    rw [appendStep_reader]
    exact ⟨rfl, rfl⟩
  obtain ⟨bs, v, hexec, hacc, hpos, hdel, _⟩ := exists_finish (w := appendStep w cur n res) r
    (by rw [hrd.1]; exact hin)
  refine ⟨bs, v, hexec, not_exactlyOnce_of_length ?_⟩
  rw [hacc, hpos, hdel, hrd.2, h.total_eq hin, appendStep_accepted, if_pos hroom,
    List.length_append, List.length_singleton, h.length_eq]
  simp [World.delivered]

theorem begin_breaks (h : Delivery w) {r : ι} (hbad : ¬ Undisturbed w (.advance r))
    (hs : modSysAudit w r = some w') :
    ∃ bs v, exec step w' bs = some v ∧ ¬ ExactlyOnce v := by
  simp only [Undisturbed, Classical.not_imp, not_or, not_forall, Bool.not_eq_false] at hbad
  obtain ⟨hpc, hpos, r', hin⟩ := hbad
  have hne : r' ≠ r := by
    rintro rfl
    simp [hpc, ReaderPc.inWindow] at hin
  have hw' : w' = w.setReader r { w.reader r with pc := .copying w.mod.currentPos 0 } := by
    simp only [modSysAudit, hpc, Option.some.injEq] at hs
    exact hs.symm
  have hrd' : w'.reader r' = w.reader r' := by rw [hw', reader_setReader_of_ne w hne]
  have hrd : w'.reader r = { w.reader r with pc := .copying w.mod.currentPos 0 } := by
    rw [hw', reader_setReader_self]
  -- the drain that was already under way ends first, then the new one
  obtain ⟨bs, v, hexec, hacc, _, hdel, hothers⟩ := exists_finish (w := w') r'
    (by rw [hrd']; exact hin)
  have hv : v.reader r = w'.reader r := hothers r hne.symm
  obtain ⟨cs, u, hexec', hacc', hpos', hdel', _⟩ := exists_finish (w := v) r
    (by rw [hv, hrd]; rfl)
  refine ⟨bs ++ cs, u, exec_trans hexec hexec', not_exactlyOnce_of_length ?_⟩
  have hlen := h.length_eq
  have htot := h.total_eq hin
  have hdw : w'.delivered = w.delivered := by rw [hw']; rfl
  have haw : w'.accepted = w.accepted := by rw [hw']; rfl
  rw [hacc', hacc, hpos', hdel', hdel, hv, hrd', htot, hrd, hdw, haw]
  simp only [Reader.total]
  omega

theorem fault_breaks (h : Delivery w) {r : ι} (hbad : ¬ Undisturbed w (.fault r))
    (hs : copyFault w r = some w') : ∃ bs v, exec step w' bs = some v ∧ ¬ ExactlyOnce v := by
  obtain ⟨count, done, hpc, rfl⟩ := copyFault_eq_some hs
  have hcons := h.consistent r
  simp only [Reader.Consistent, hpc] at hcons
  obtain ⟨hcount, _, hbuf⟩ := hcons
  simp only [Undisturbed, hpc, ReaderPc.unfinished, Bool.not_eq_false, decide_eq_true_eq] at hbad
  obtain ⟨bs, v, hexec, hacc, hpos, hdel, _⟩ :=
    exists_finish (w := w.setReader r { w.reader r with pc := .readCount }) r
      (by simp [World.setReader, ReaderPc.inWindow])
  refine ⟨bs, v, hexec, not_exactlyOnce_of_length ?_⟩
  have hlen := h.length_eq
  rw [hacc, hpos, hdel]
  simp [World.setReader, World.delivered, Reader.total, hbuf] at hlen ⊢
  omega

theorem disturbed_breaks {a : Action ι} (h : Delivery w) (hbad : ¬ Undisturbed w a)
    (hs : step w a = some w') : ∃ bs v, exec step w' bs = some v ∧ ¬ ExactlyOnce v := by
  cases a with
  | append cur n res =>
      cases hs
      exact append_breaks h hbad
  | advance r => exact begin_breaks h hbad hs
  | fault r => exact fault_breaks h hbad hs
  | call r type size reset => exact absurd trivial hbad
  | signal r => exact absurd trivial hbad

/-- A run with only undisturbed steps delivers exactly once in every state it reaches, and
its first disturbed step leads on to a state in which records are lost or duplicated. -/
theorem audit_exactly_once (as : List (Action ι)) (w : World ι)
    (h : exec step (initial ι) as = some w) (hok : Meets step Undisturbed (initial ι) as) :
    ExactlyOnce w ∧ ∀ a w', step w a = some w' → ¬ Undisturbed w a →
      ∃ bs v, exec step w' bs = some v ∧ ¬ ExactlyOnce v := by
  have hdel := delivery_exec h hok
  exact ⟨hdel.exactlyOnce (numbered_exec h), fun _ _ hs hbad => disturbed_breaks hdel hbad hs⟩

instance [Fintype ι] (w : World ι) : ∀ a, Decidable (Undisturbed w a)
  | .append _ _ _ =>
      inferInstanceAs (Decidable (w.mod.currentPos < auditBufSize →
        ∀ r, (w.reader r).pc.inWindow = false))
  | .advance r =>
      inferInstanceAs (Decidable ((w.reader r).pc = .copyBegin →
        w.mod.currentPos = 0 ∨ ∀ r', (w.reader r').pc.inWindow = false))
  | .fault r => inferInstanceAs (Decidable ((w.reader r).pc.unfinished = false))
  | .call _ _ _ _ | .signal _ => isTrue trivial

def someTask : Current := ⟨none, 0, 0, 1, 0, 0, Vector.replicate commSize 0⟩

/-- A reader that a signal wakes hands out the one record that is there. -/
def interruptedDrain : List (Action Unit) :=
  [.append someTask 5 0, .call () 0 5200 1, .advance (), .advance (), .signal ()] ++
    List.replicate 6 (.advance ())

theorem audit_exactly_once_interrupted :
    ∃ w, exec step (initial Unit) interruptedDrain = some w ∧
      w.drains.map Drain.count = [1] ∧ ExactlyOnce w ∧
      ∀ a w', step w a = some w' → ¬ Undisturbed w a →
        ∃ bs v, exec step w' bs = some v ∧ ¬ ExactlyOnce v := by
  obtain ⟨w, hw, hc⟩ : ∃ w, exec step (initial Unit) interruptedDrain = some w ∧
      (w.drains.map Drain.count == [1]) = true := exists_of_exec_any _ _ _ (by decide +kernel)
  have hok : Meets step Undisturbed (initial Unit) interruptedDrain := by decide +kernel
  have hthm := audit_exactly_once interruptedDrain w hw hok
  exact ⟨w, hw, by simpa using hc, hthm⟩

/-- The buffer reaches 80 records, a drain copies them, and one more system call is audited
before the drain reads `current_pos` again. -/
def lateAppend : List (Action Unit) :=
  List.replicate 80 (.append someTask 5 0) ++ [.call () 0 5200 1] ++
    List.replicate 84 (.advance ()) ++ [.append someTask 5 0] ++ List.replicate 2 (.advance ())

/-- The drain returns 81 for the 80 records it copied, and record 80 is in no drain and no
longer in the buffer. -/
theorem audit_late_append_lost :
    ∃ w, exec step (initial Unit) lateAppend = some w ∧
      (∃ rec ∈ w.accepted, rec ∉ w.delivered ++ w.mod.buffered) ∧
      (∃ d ∈ w.drains, d.records.length = 80 ∧ d.count = 81) ∧ ¬ ExactlyOnce w := by
  obtain ⟨w, hw, hc⟩ : ∃ w, exec step (initial Unit) lateAppend = some w ∧
      (w.accepted.any (fun rec => decide (rec ∉ w.delivered ++ w.mod.buffered)) &&
        w.drains.any (fun d => d.records.length == 80 && d.count == 81)) = true :=
    exists_of_exec_any _ _ _ (by decide +kernel)
  simp only [Bool.and_eq_true, List.any_eq_true, decide_eq_true_eq, beq_iff_eq] at hc
  obtain ⟨⟨rec, hrec, hlost⟩, hdrain⟩ := hc
  exact ⟨w, hw, ⟨rec, hrec, hlost⟩, hdrain, fun he => hlost (he.conserved.mem_iff.1 hrec)⟩

end Audit
