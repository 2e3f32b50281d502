import LinuxDriver.NpNc
import LinuxDriver.BoundedQueue

/-!
# The np-nc ring is a bounded first-in first-out channel

`Counts` links the semaphores with the threads between a `down` and the matching `up`,
`Positions` ties `in` and `out` to the numbers of goods written and read, and `Stored` says
which goods the ring holds. Together they are preserved by every step of every actor, and
every step moves the abstract channel of produced and consumed goods by one `put`, one `get`
or not at all.
-/

open Interleaving ThreadTally BoundedQueue

namespace NpNc

variable {N : ℕ} {s s' : State N}

namespace ProducerPc

/-- Holds `mutex` and `in` still counts every write. -/
def early : ProducerPc → ℕ
  | .readIn | .storeBuf _ | .upMutex => 1
  | _ => 0

/-- Holds `mutex` and has written a slot that `in` does not count yet. -/
def late : ProducerPc → ℕ
  | .printGoods | .rereadIn | .storeIn _ => 1
  | _ => 0

/-- Between `down(&s1)` and the write to `buf`. -/
def reserved : ProducerPc → ℕ
  | .downMutex | .readIn | .storeBuf _ => 1
  | _ => 0

/-- Between the write to `buf` and `up(&s2)`. -/
def written : ProducerPc → ℕ
  | .printGoods | .rereadIn | .storeIn _ | .upMutex | .upS2 => 1
  | _ => 0

end ProducerPc

namespace ConsumerPc

def early : ConsumerPc → ℕ
  | .readOut | .loadBuf _ | .upMutex => 1
  | _ => 0

def late : ConsumerPc → ℕ
  | .printGoods | .rereadOut | .storeOut _ => 1
  | _ => 0

/-- Between `down(&s2)` and the read of `buf`. -/
def reserved : ConsumerPc → ℕ
  | .downMutex | .readOut | .loadBuf _ => 1
  | _ => 0

/-- Between the read of `buf` and `up(&s1)`. -/
def emptied : ConsumerPc → ℕ
  | .printGoods | .rereadOut | .storeOut _ | .upMutex | .upS1 => 1
  | _ => 0

end ConsumerPc

namespace State

def producers (s : State N) (w : ProducerPc → ℕ) : ℕ :=
  tally (fun p : Producer => w p.pc) s.producer

def consumers (s : State N) (w : ConsumerPc → ℕ) : ℕ :=
  tally (fun c : Consumer => w c.pc) s.consumer

theorem producers_of_update {j : Fin N} {p : Producer}
    (hp : s'.producer = Function.update s.producer j p) (w : ProducerPc → ℕ) :
    s'.producers w + w (s.producer j).pc = s.producers w + w p.pc := by
  unfold producers
  rw [hp]
  exact tally_update (fun p : Producer => w p.pc) s.producer j p

theorem consumers_of_update {j : Fin N} {c : Consumer}
    (hc : s'.consumer = Function.update s.consumer j c) (w : ConsumerPc → ℕ) :
    s'.consumers w + w (s.consumer j).pc = s.consumers w + w c.pc := by
  unfold consumers
  rw [hc]
  exact tally_update (fun c : Consumer => w c.pc) s.consumer j c

theorem producers_producerAt (s : State N) (j : Fin N) (pc : ProducerPc) (w : ProducerPc → ℕ) :
    (s.producerAt j pc).producers w + w (s.producer j).pc = s.producers w + w pc :=
  producers_of_update (p := { s.producer j with pc := pc }) rfl w

theorem consumers_consumerAt (s : State N) (j : Fin N) (pc : ConsumerPc) (w : ConsumerPc → ℕ) :
    (s.consumerAt j pc).consumers w + w (s.consumer j).pc = s.consumers w + w pc :=
  consumers_of_update (c := { s.consumer j with pc := pc }) rfl w

theorem le_producers (s : State N) (w : ProducerPc → ℕ) (j : Fin N) :
    w (s.producer j).pc ≤ s.producers w :=
  le_tally (fun p : Producer => w p.pc) s.producer j

theorem le_consumers (s : State N) (w : ConsumerPc → ℕ) (j : Fin N) :
    w (s.consumer j).pc ≤ s.consumers w :=
  le_tally (fun c : Consumer => w c.pc) s.consumer j

theorem producers_congr (h : s'.producer = s.producer) (w : ProducerPc → ℕ) :
    s'.producers w = s.producers w := by
  simp only [producers, h]

theorem consumers_congr (h : s'.consumer = s.consumer) (w : ConsumerPc → ℕ) :
    s'.consumers w = s.consumers w := by
  simp only [consumers, h]

/-- The abstract channel: the goods in the order of the writes and of the reads. -/
def channel (s : State N) : Channel ℤ := ⟨s.produced, s.consumed⟩

end State

structure ProducerFrame (s s' : State N) : Prop where
  consumer : s'.consumer = s.consumer
  cflag : s'.cflag = s.cflag
  initPc : s'.initPc = s.initPc

theorem productorThread_frame {j : Fin N} (hs : productorThread s j = some s') :
    ∃ p, s'.producer = Function.update s.producer j p ∧ (s.producer j).pc ≠ .unborn ∧
      p.pc ≠ .unborn ∧ ProducerFrame s s' := by
  cases hpc : (s.producer j).pc <;> simp only [productorThread, hpc, reduceCtorEq] at hs
  all_goals try split_ifs at hs
  all_goals cases hs
  all_goals exact ⟨_, rfl, by simp, by simp, rfl, rfl, rfl⟩

theorem consumerThread_frame {j : Fin N} (hs : consumerThread s j = some s') :
    ∃ c, s'.consumer = Function.update s.consumer j c ∧ (s.consumer j).pc ≠ .unborn ∧
      c.pc ≠ .unborn ∧ s'.producer = s.producer ∧ s'.initPc = s.initPc := by
  cases hpc : (s.consumer j).pc <;> simp only [consumerThread, hpc, reduceCtorEq] at hs
  all_goals try split_ifs at hs
  all_goals cases hs
  all_goals exact ⟨_, rfl, by simp, by simp, rfl, rfl⟩

/-- The mutex has one owner, every slot is free, stored or in the hands of one thread, and
the goods written but not read are announced by `s2`, about to be, or claimed. -/
structure Counts (s : State N) : Prop where
  owner : s.mutex + s.producers ProducerPc.early + s.producers ProducerPc.late +
    s.consumers ConsumerPc.early + s.consumers ConsumerPc.late = 1
  slots : s.s1 + s.s2 + s.producers ProducerPc.reserved + s.producers ProducerPc.written +
    s.consumers ConsumerPc.reserved + s.consumers ConsumerPc.emptied = bufNum
  stock : s.produced.length = s.consumed.length + s.s2 + s.producers ProducerPc.written +
    s.consumers ConsumerPc.reserved

/-- A producer keeps the counts if its own place makes up for what it does to the shared
counters. -/
theorem Counts.moveProducer {j : Fin N} {p : Producer} (h : Counts s)
    (hp : s'.producer = Function.update s.producer j p) (hc : s'.consumer = s.consumer)
    (ho : s'.mutex + p.pc.early + p.pc.late =
      s.mutex + (s.producer j).pc.early + (s.producer j).pc.late)
    (hl : s'.s1 + s'.s2 + p.pc.reserved + p.pc.written =
      s.s1 + s.s2 + (s.producer j).pc.reserved + (s.producer j).pc.written)
    (hk : s'.produced.length + s.s2 + (s.producer j).pc.written =
      s.produced.length + s'.s2 + p.pc.written)
    (hg : s'.consumed = s.consumed) : Counts s' := by
  have he := State.producers_of_update hp ProducerPc.early
  have hla := State.producers_of_update hp ProducerPc.late
  have hr := State.producers_of_update hp ProducerPc.reserved
  have hw := State.producers_of_update hp ProducerPc.written
  obtain ⟨howner, hslots, hstock⟩ := h
  constructor
  · rw [State.consumers_congr hc, State.consumers_congr hc]
    omega
  · rw [State.consumers_congr hc, State.consumers_congr hc]
    omega
  · rw [State.consumers_congr hc, hg]
    omega

theorem Counts.moveConsumer {j : Fin N} {c : Consumer} (h : Counts s)
    (hc : s'.consumer = Function.update s.consumer j c) (hp : s'.producer = s.producer)
    (ho : s'.mutex + c.pc.early + c.pc.late =
      s.mutex + (s.consumer j).pc.early + (s.consumer j).pc.late)
    (hl : s'.s1 + s'.s2 + c.pc.reserved + c.pc.emptied =
      s.s1 + s.s2 + (s.consumer j).pc.reserved + (s.consumer j).pc.emptied)
    (hk : s'.consumed.length + s'.s2 + c.pc.reserved =
      s.consumed.length + s.s2 + (s.consumer j).pc.reserved)
    (hg : s'.produced = s.produced) : Counts s' := by
  have he := State.consumers_of_update hc ConsumerPc.early
  have hla := State.consumers_of_update hc ConsumerPc.late
  have hr := State.consumers_of_update hc ConsumerPc.reserved
  have hm := State.consumers_of_update hc ConsumerPc.emptied
  obtain ⟨howner, hslots, hstock⟩ := h
  constructor
  · rw [State.producers_congr hp, State.producers_congr hp]
    omega
  · rw [State.producers_congr hp, State.producers_congr hp]
    omega
  · rw [State.producers_congr hp, hg]
    omega

theorem counts_producer {j : Fin N} (h : Counts s) (hs : productorThread s j = some s') :
    Counts s' := by
  cases hpc : (s.producer j).pc <;> simp only [productorThread, hpc, reduceCtorEq] at hs
  all_goals try split_ifs at hs
  all_goals cases hs
  all_goals
    refine h.moveProducer rfl rfl ?_ ?_ ?_ rfl <;>
      simp only [hpc, State.producerAt, State.setProducer, ProducerPc.early, ProducerPc.late,
        ProducerPc.reserved, ProducerPc.written, List.length_append, List.length_singleton]
  all_goals try omega

theorem counts_consumer {j : Fin N} (h : Counts s) (hs : consumerThread s j = some s') :
    Counts s' := by
  cases hpc : (s.consumer j).pc <;> simp only [consumerThread, hpc, reduceCtorEq] at hs
  all_goals try split_ifs at hs
  all_goals cases hs
  all_goals
    refine h.moveConsumer rfl rfl ?_ ?_ ?_ rfl <;>
      simp only [hpc, State.consumerAt, State.setConsumer, ConsumerPc.early, ConsumerPc.late,
        ConsumerPc.reserved, ConsumerPc.emptied, List.length_append, List.length_singleton]
  all_goals try omega

theorem Counts.late_eq_zero {j : Fin N} (h : Counts s) (hj : (s.producer j).pc.early = 1) :
    s.producers ProducerPc.late = 0 := by
  have hle := s.le_producers ProducerPc.early j
  have ho := h.owner
  omega

theorem Counts.consumers_late_eq_zero {j : Fin N} (h : Counts s)
    (hj : (s.consumer j).pc.early = 1) : s.consumers ConsumerPc.late = 0 := by
  have hle := s.le_consumers ConsumerPc.early j
  have ho := h.owner
  omega

/-- A late producer is the only producer inside the critical section. -/
theorem Counts.late_unique {j k : Fin N} (h : Counts s) (hj : (s.producer j).pc.late = 1)
    (hk : 1 ≤ (s.producer k).pc.early + (s.producer k).pc.late) : k = j := by
  by_contra hne
  have hadd := add_le_tally (fun p : Producer => p.pc.early + p.pc.late) s.producer
    (i := j) (j := k) (Ne.symm hne)
  rw [tally_add] at hadd
  have ho := h.owner
  simp only [State.producers] at ho
  omega

theorem Counts.consumers_late_unique {j k : Fin N} (h : Counts s)
    (hj : (s.consumer j).pc.late = 1)
    (hk : 1 ≤ (s.consumer k).pc.early + (s.consumer k).pc.late) : k = j := by
  by_contra hne
  have hadd := add_le_tally (fun c : Consumer => c.pc.early + c.pc.late) s.consumer
    (i := j) (j := k) (Ne.symm hne)
  rw [tally_add] at hadd
  have ho := h.owner
  simp only [State.consumers] at ho
  omega

/-- The slot a producer carries from its last read of `in`. -/
def ProducerPc.slot? : ProducerPc → Option ℕ
  | .storeBuf slot | .storeIn slot => some slot
  | _ => none

def ConsumerPc.slot? : ConsumerPc → Option ℕ
  | .loadBuf slot | .storeOut slot => some slot
  | _ => none

theorem ProducerPc.holds_of_slot {pc : ProducerPc} {slot : ℕ} (h : pc.slot? = some slot) :
    1 ≤ pc.early + pc.late := by
  cases pc <;> simp_all [slot?, early, late]

theorem ConsumerPc.holds_of_slot {pc : ConsumerPc} {slot : ℕ} (h : pc.slot? = some slot) :
    1 ≤ pc.early + pc.late := by
  cases pc <;> simp_all [slot?, early, late]

/-- `in` counts the writes to `buf` and `out` the reads from it, up to the one thread that is
about to advance it, and a slot register holds the current value of its index. -/
structure Positions (s : State N) : Prop where
  inLt : s.inPos < bufNum
  inCount : (s.inPos + s.producers ProducerPc.late) % bufNum = s.produced.length % bufNum
  outLt : s.outPos < bufNum
  outCount : (s.outPos + s.consumers ConsumerPc.late) % bufNum = s.consumed.length % bufNum
  inSlot : ∀ j slot, (s.producer j).pc.slot? = some slot → slot = s.inPos
  outSlot : ∀ j slot, (s.consumer j).pc.slot? = some slot → slot = s.outPos

/-- A producer that leaves `in` alone keeps the positions if it is late exactly after its
write and carries no slot but `in`. -/
theorem Positions.moveProducer {j : Fin N} {p : Producer} (h : Positions s)
    (hp : s'.producer = Function.update s.producer j p) (hc : s'.consumer = s.consumer)
    (hin : s'.inPos = s.inPos) (hout : s'.outPos = s.outPos) (hg : s'.consumed = s.consumed)
    (hk : s'.produced.length + (s.producer j).pc.late = s.produced.length + p.pc.late)
    (hslot : ∀ slot, p.pc.slot? = some slot → slot = s.inPos) : Positions s' := by
  have hla := State.producers_of_update hp ProducerPc.late
  have hcount := h.inCount
  refine ⟨hin ▸ h.inLt, ?_, hout ▸ h.outLt, ?_, ?_, ?_⟩
  · rw [hin]
    simp only [bufNum] at hcount ⊢
    omega
  · rw [hout, hg, State.consumers_congr hc]
    exact h.outCount
  · intro k slot hk
    rw [hin]
    by_cases hkj : k = j
    · subst k
      rw [hp, Function.update_self] at hk
      exact hslot slot hk
    · rw [hp, Function.update_of_ne hkj] at hk
      exact h.inSlot k slot hk
  · intro k slot hk
    rw [hc] at hk
    rw [hout]
    exact h.outSlot k slot hk

theorem Positions.moveConsumer {j : Fin N} {c : Consumer} (h : Positions s)
    (hc : s'.consumer = Function.update s.consumer j c) (hp : s'.producer = s.producer)
    (hout : s'.outPos = s.outPos) (hin : s'.inPos = s.inPos) (hg : s'.produced = s.produced)
    (hk : s'.consumed.length + (s.consumer j).pc.late = s.consumed.length + c.pc.late)
    (hslot : ∀ slot, c.pc.slot? = some slot → slot = s.outPos) : Positions s' := by
  have hla := State.consumers_of_update hc ConsumerPc.late
  have hcount := h.outCount
  refine ⟨hin ▸ h.inLt, ?_, hout ▸ h.outLt, ?_, ?_, ?_⟩
  · rw [hin, hg, State.producers_congr hp]
    exact h.inCount
  · rw [hout]
    simp only [bufNum] at hcount ⊢
    omega
  · intro k slot hk
    rw [hp] at hk
    rw [hin]
    exact h.inSlot k slot hk
  · intro k slot hk
    rw [hout]
    by_cases hkj : k = j
    · subst k
      rw [hc, Function.update_self] at hk
      exact hslot slot hk
    · rw [hc, Function.update_of_ne hkj] at hk
      exact h.outSlot k slot hk

/-- Advancing `in` is the one step that invalidates slot registers, and its thread is alone. -/
theorem positions_storeIn {j : Fin N} {slot : ℕ} (hcounts : Counts s) (h : Positions s)
    (hpc : (s.producer j).pc = .storeIn slot) :
    Positions { s.producerAt j .upMutex with inPos := (slot + 1) % bufNum } := by
  have hlate : (s.producer j).pc.late = 1 := by rw [hpc]; rfl
  have hslot : slot = s.inPos := h.inSlot j slot (by rw [hpc]; rfl)
  have hla := s.producers_producerAt j .upMutex ProducerPc.late
  have hle := s.le_producers ProducerPc.late j
  have ho := hcounts.owner
  have hcount := h.inCount
  refine ⟨Nat.mod_lt _ (by decide), ?_, h.outLt, h.outCount, ?_, h.outSlot⟩
  · change ((slot + 1) % bufNum + (s.producerAt j .upMutex).producers ProducerPc.late) % bufNum =
      s.produced.length % bufNum
    rw [hlate] at hla hle
    simp only [show ProducerPc.late .upMutex = 0 from rfl, bufNum] at hla hcount ⊢
    omega
  · intro k slot' hk
    by_cases hkj : k = j
    · subst k
      simp [State.producerAt, State.setProducer, ProducerPc.slot?] at hk
    · have hold : (s.producer k).pc.slot? = some slot' := by
        simpa [State.producerAt, State.setProducer, hkj] using hk
      exact (hkj (hcounts.late_unique hlate (ProducerPc.holds_of_slot hold))).elim

theorem positions_storeOut {j : Fin N} {slot : ℕ} (hcounts : Counts s) (h : Positions s)
    (hpc : (s.consumer j).pc = .storeOut slot) :
    Positions { s.consumerAt j .upMutex with outPos := (slot + 1) % bufNum } := by
  have hlate : (s.consumer j).pc.late = 1 := by rw [hpc]; rfl
  have hslot : slot = s.outPos := h.outSlot j slot (by rw [hpc]; rfl)
  have hla := s.consumers_consumerAt j .upMutex ConsumerPc.late
  have hle := s.le_consumers ConsumerPc.late j
  have ho := hcounts.owner
  have hcount := h.outCount
  refine ⟨h.inLt, h.inCount, Nat.mod_lt _ (by decide), ?_, h.inSlot, ?_⟩
  · change ((slot + 1) % bufNum + (s.consumerAt j .upMutex).consumers ConsumerPc.late) % bufNum =
      s.consumed.length % bufNum
    rw [hlate] at hla hle
    simp only [show ConsumerPc.late .upMutex = 0 from rfl, bufNum] at hla hcount ⊢
    omega
  · intro k slot' hk
    by_cases hkj : k = j
    · subst k
      simp [State.consumerAt, State.setConsumer, ConsumerPc.slot?] at hk
    · have hold : (s.consumer k).pc.slot? = some slot' := by
        simpa [State.consumerAt, State.setConsumer, hkj] using hk
      exact (hkj (hcounts.consumers_late_unique hlate (ConsumerPc.holds_of_slot hold))).elim

theorem positions_producer {j : Fin N} (hcounts : Counts s) (h : Positions s)
    (hs : productorThread s j = some s') : Positions s' := by
  cases hpc : (s.producer j).pc with
  | storeIn slot =>
      simp only [productorThread, hpc, Option.some.injEq] at hs
      subst s'
      exact positions_storeIn hcounts h hpc
  | _ =>
      simp only [productorThread, hpc, reduceCtorEq] at hs
      try split_ifs at hs
      all_goals cases hs
      all_goals
        refine h.moveProducer rfl rfl rfl rfl rfl ?_ ?_ <;>
          simp [hpc, State.producerAt, State.setProducer, ProducerPc.late, ProducerPc.slot?]

theorem positions_consumer {j : Fin N} (hcounts : Counts s) (h : Positions s)
    (hs : consumerThread s j = some s') : Positions s' := by
  cases hpc : (s.consumer j).pc with
  | storeOut slot =>
      simp only [consumerThread, hpc, Option.some.injEq] at hs
      subst s'
      exact positions_storeOut hcounts h hpc
  | _ =>
      simp only [consumerThread, hpc, reduceCtorEq] at hs
      try split_ifs at hs
      all_goals cases hs
      all_goals
        refine h.moveConsumer rfl rfl rfl rfl rfl ?_ ?_ <;>
          simp [hpc, State.consumerAt, State.setConsumer, ConsumerPc.late, ConsumerPc.slot?]

/-- The producer that `np_nc_init` forks next. -/
def InitPc.nextProducer : InitPc N → ℕ
  | .loop i => i
  | .forkProducer i => i
  | .forkConsumer i => i + 1
  | .returned => N

def InitPc.nextConsumer : InitPc N → ℕ
  | .loop i => i
  | .forkProducer i => i
  | .forkConsumer i => i
  | .returned => N

/-- The threads that exist are those already forked. -/
structure Forked (s : State N) : Prop where
  producer : ∀ j, (s.producer j).pc = .unborn ↔ s.initPc.nextProducer ≤ j
  consumer : ∀ j, (s.consumer j).pc = .unborn ↔ s.initPc.nextConsumer ≤ j

theorem Forked.move_producer {j : Fin N} {p : Producer} (h : Forked s)
    (hp : s'.producer = Function.update s.producer j p) (hc : s'.consumer = s.consumer)
    (hi : s'.initPc = s.initPc) (hold : (s.producer j).pc ≠ .unborn) (hnew : p.pc ≠ .unborn) :
    Forked s' := by
  refine ⟨fun k => ?_, fun k => ?_⟩
  · rw [hi, ← h.producer k, hp]
    by_cases hk : k = j
    · subst k
      simp [hold, hnew]
    · rw [Function.update_of_ne hk]
  · rw [hi, hc]
    exact h.consumer k

theorem Forked.move_consumer {j : Fin N} {c : Consumer} (h : Forked s)
    (hc : s'.consumer = Function.update s.consumer j c) (hp : s'.producer = s.producer)
    (hi : s'.initPc = s.initPc) (hold : (s.consumer j).pc ≠ .unborn) (hnew : c.pc ≠ .unborn) :
    Forked s' := by
  refine ⟨fun k => ?_, fun k => ?_⟩
  · rw [hi, hp]
    exact h.producer k
  · rw [hi, ← h.consumer k, hc]
    by_cases hk : k = j
    · subst k
      simp [hold, hnew]
    · rw [Function.update_of_ne hk]

theorem forked_producer {j : Fin N} (h : Forked s) (hs : productorThread s j = some s') :
    Forked s' := by
  obtain ⟨p, hp, hold, hnew, hframe⟩ := productorThread_frame hs
  exact h.move_producer hp hframe.consumer hframe.initPc hold hnew

theorem forked_consumer {j : Fin N} (h : Forked s) (hs : consumerThread s j = some s') :
    Forked s' := by
  obtain ⟨c, hc, hold, hnew, hp, hi⟩ := consumerThread_frame hs
  exact h.move_consumer hc hp hi hold hnew

/-- The four parts of the invariant; the ring holds every good written and not yet read. -/
structure Inv (s : State N) : Prop where
  forked : Forked s
  counts : Counts s
  positions : Positions s
  ring : RingHolds bufNum s.buf s.produced s.consumed.length

theorem Inv.store_slot {j : Fin N} {slot : ℕ} (h : Inv s)
    (hpc : (s.producer j).pc = .storeBuf slot) : slot = s.produced.length % bufNum := by
  have hslot := h.positions.inSlot j slot (by rw [hpc]; rfl)
  have hlate := h.counts.late_eq_zero (j := j) (by rw [hpc]; rfl)
  have hcount := h.positions.inCount
  rw [hlate, Nat.add_zero, Nat.mod_eq_of_lt h.positions.inLt] at hcount
  rw [hslot, hcount]

/-- A producer about to write has reserved a free slot. -/
theorem Inv.store_room {j : Fin N} {slot : ℕ} (h : Inv s)
    (hpc : (s.producer j).pc = .storeBuf slot) :
    s.produced.length < s.consumed.length + bufNum := by
  have hres := s.le_producers ProducerPc.reserved j
  have hone : (s.producer j).pc.reserved = 1 := by rw [hpc]; rfl
  have hslots := h.counts.slots
  have hstock := h.counts.stock
  omega

theorem Inv.load_slot {j : Fin N} {slot : ℕ} (h : Inv s)
    (hpc : (s.consumer j).pc = .loadBuf slot) : slot = s.consumed.length % bufNum := by
  have hslot := h.positions.outSlot j slot (by rw [hpc]; rfl)
  have hlate := h.counts.consumers_late_eq_zero (j := j) (by rw [hpc]; rfl)
  have hcount := h.positions.outCount
  rw [hlate, Nat.add_zero, Nat.mod_eq_of_lt h.positions.outLt] at hcount
  rw [hslot, hcount]

theorem Inv.load_stock {j : Fin N} {slot : ℕ} (h : Inv s)
    (hpc : (s.consumer j).pc = .loadBuf slot) : s.consumed.length < s.produced.length := by
  have hres := s.le_consumers ConsumerPc.reserved j
  have hone : (s.consumer j).pc.reserved = 1 := by rw [hpc]; rfl
  have hstock := h.counts.stock
  omega

theorem ring_producer {j : Fin N} (h : Inv s) (hs : productorThread s j = some s') :
    RingHolds bufNum s'.buf s'.produced s'.consumed.length := by
  cases hpc : (s.producer j).pc with
  | storeBuf slot =>
      simp only [productorThread, hpc, Option.some.injEq] at hs
      subst s'
      rw [h.store_slot hpc]
      exact h.ring.push (h.store_room hpc) _
  | _ =>
      simp only [productorThread, hpc, reduceCtorEq] at hs
      try split_ifs at hs
      all_goals cases hs
      all_goals exact h.ring

theorem ring_consumer {j : Fin N} (h : Inv s) (hs : consumerThread s j = some s') :
    RingHolds bufNum s'.buf s'.produced s'.consumed.length := by
  cases hpc : (s.consumer j).pc with
  | loadBuf slot =>
      simp only [consumerThread, hpc, Option.some.injEq] at hs
      subst s'
      change RingHolds bufNum s.buf s.produced (s.consumed ++ [s.buf slot]).length
      rw [List.length_append]
      exact h.ring.pop
  | _ =>
      simp only [consumerThread, hpc, reduceCtorEq] at hs
      try split_ifs at hs
      all_goals cases hs
      all_goals exact h.ring

/-- Of the threads from `j` on, `j` itself is not among those to fork once it runs. -/
theorem update_iff_succ_le {α : Type*} {P : α → Prop} {f : Fin N → α} {j : Fin N} {x : α}
    (hx : ¬ P x) (hf : ∀ k, P (f k) ↔ (j : ℕ) ≤ k) (k : Fin N) :
    P (Function.update f j x k) ↔ (j : ℕ) + 1 ≤ k := by
  by_cases hkj : k = j
  · subst k
    rw [Function.update_self]
    exact iff_of_false hx (Nat.not_succ_le_self _)
  · have hne : (k : ℕ) ≠ j := fun he => hkj (Fin.ext he)
    rw [Function.update_of_ne hkj, hf]
    omega

/-- Forking a thread moves it from one place outside all sections to another. -/
theorem inv_init (h : Inv s) (hs : npNcInit s = some s') : Inv s' := by
  obtain ⟨hf, hc, hp, hr⟩ := h
  cases hpc : s.initPc with
  | loop i =>
      simp only [npNcInit, hpc] at hs
      have hfp := hf.producer
      have hfc := hf.consumer
      simp only [hpc, InitPc.nextProducer, InitPc.nextConsumer] at hfp hfc
      split_ifs at hs with hi
      · cases hs
        exact ⟨⟨hfp, hfc⟩, ⟨hc.1, hc.2, hc.3⟩, ⟨hp.1, hp.2, hp.3, hp.4, hp.5, hp.6⟩, hr⟩
      · cases hs
        refine ⟨⟨fun k => ?_, fun k => ?_⟩, ⟨hc.1, hc.2, hc.3⟩,
          ⟨hp.1, hp.2, hp.3, hp.4, hp.5, hp.6⟩, hr⟩
        · have hk := k.isLt
          exact (hfp k).trans ⟨fun _ => by omega, fun hn => absurd hn (Nat.not_le.2 hk)⟩
        · have hk := k.isLt
          exact (hfc k).trans ⟨fun _ => by omega, fun hn => absurd hn (Nat.not_le.2 hk)⟩
  | forkProducer j =>
      have hun : (s.producer j).pc = .unborn := (hf.producer j).2 (by rw [hpc]; exact le_rfl)
      simp only [npNcInit, hpc, Option.some.injEq] at hs
      subst s'
      have hfp := hf.producer
      have hfc := hf.consumer
      rw [hpc] at hfp hfc
      refine ⟨⟨?_, hfc⟩, ?_, ?_, hr⟩
      · exact update_iff_succ_le (P := fun p : Producer => p.pc = .unborn) (by simp) hfp
      · exact hc.moveProducer (j := j) rfl rfl (by simp [hun, State.producerAt, State.setProducer,
          ProducerPc.early, ProducerPc.late]) (by simp [hun, State.producerAt, State.setProducer,
          ProducerPc.reserved, ProducerPc.written]) (by simp [hun, State.producerAt,
          State.setProducer, ProducerPc.written]) rfl
      · exact hp.moveProducer (j := j) rfl rfl rfl rfl rfl (by simp [hun, State.producerAt,
          State.setProducer, ProducerPc.late]) (by simp [ProducerPc.slot?])
  | forkConsumer j =>
      have hun : (s.consumer j).pc = .unborn := (hf.consumer j).2 (by rw [hpc]; exact le_rfl)
      simp only [npNcInit, hpc, Option.some.injEq] at hs
      subst s'
      have hfp := hf.producer
      have hfc := hf.consumer
      rw [hpc] at hfp hfc
      refine ⟨⟨hfp, ?_⟩, ?_, ?_, hr⟩
      · exact update_iff_succ_le (P := fun c : Consumer => c.pc = .unborn) (by simp) hfc
      · exact hc.moveConsumer (j := j) rfl rfl (by simp [hun, State.consumerAt, State.setConsumer,
          ConsumerPc.early, ConsumerPc.late]) (by simp [hun, State.consumerAt, State.setConsumer,
          ConsumerPc.reserved, ConsumerPc.emptied]) (by simp [hun, State.consumerAt,
          State.setConsumer, ConsumerPc.reserved]) rfl
      · exact hp.moveConsumer (j := j) rfl rfl rfl rfl rfl (by simp [hun, State.consumerAt,
          State.setConsumer, ConsumerPc.late]) (by simp [ConsumerPc.slot?])
  | returned =>
      simp [npNcInit, hpc] at hs

theorem inv_step {a : Actor N} (h : Inv s) (hs : step s a = some s') : Inv s' := by
  cases a with
  | init => exact inv_init h hs
  | producer j =>
      exact ⟨forked_producer h.forked hs, counts_producer h.counts hs,
        positions_producer h.counts h.positions hs, ring_producer h hs⟩
  | consumer j =>
      exact ⟨forked_consumer h.forked hs, counts_consumer h.counts hs,
        positions_consumer h.counts h.positions hs, ring_consumer h hs⟩

theorem inv_initial (N : ℕ) : Inv (initial N) := by
  have hp : ∀ w : ProducerPc → ℕ, w .unborn = 0 → (initial N).producers w = 0 := fun w hw =>
    (tally_eq_zero_iff _ _).2 fun _ => hw
  have hc : ∀ w : ConsumerPc → ℕ, w .unborn = 0 → (initial N).consumers w = 0 := fun w hw =>
    (tally_eq_zero_iff _ _).2 fun _ => hw
  refine ⟨⟨fun j => ?_, fun j => ?_⟩, ⟨?_, ?_, ?_⟩,
    ⟨Nat.succ_pos 9, ?_, Nat.succ_pos 9, ?_, ?_, ?_⟩, ?_⟩
  · simp [initial, InitPc.nextProducer]
  · simp [initial, InitPc.nextConsumer]
  · rw [hp _ rfl, hp _ rfl, hc _ rfl, hc _ rfl]
    rfl
  · rw [hp _ rfl, hp _ rfl, hc _ rfl, hc _ rfl]
    rfl
  · rw [hp _ rfl, hc _ rfl]
    rfl
  · rw [hp _ rfl]
    rfl
  · rw [hc _ rfl]
    rfl
  · intro j slot hj
    simp [initial, ProducerPc.slot?] at hj
  · intro j slot hj
    simp [initial, ConsumerPc.slot?] at hj
  · intro k _ hk
    exact absurd hk (Nat.not_lt_zero k)

theorem inv_exec {as : List (Actor N)} (h : exec step (initial N) as = some s) : Inv s :=
  exec_invariant (fun _ _ _ hI hs => inv_step hI hs) (inv_initial N) h

theorem channel_producer {j : Fin N} (h : Inv s) (hs : productorThread s j = some s') :
    Channel.Step bufNum s.channel s'.channel := by
  cases hpc : (s.producer j).pc with
  | storeBuf slot =>
      simp only [productorThread, hpc, Option.some.injEq] at hs
      subst s'
      refine Channel.Step.put s.channel (s.producer j).item ?_
      have hroom := h.store_room hpc
      simp only [Channel.pending, State.channel, List.length_drop, bufNum] at hroom ⊢
      omega
  | _ =>
      simp only [productorThread, hpc, reduceCtorEq] at hs
      try split_ifs at hs
      all_goals cases hs
      all_goals exact Channel.Step.idle s.channel

theorem channel_consumer {j : Fin N} (h : Inv s) (hs : consumerThread s j = some s') :
    Channel.Step bufNum s.channel s'.channel := by
  cases hpc : (s.consumer j).pc with
  | loadBuf slot =>
      simp only [consumerThread, hpc, Option.some.injEq] at hs
      subst s'
      have hstock := h.load_stock hpc
      have hfront : s.buf slot = s.produced[s.consumed.length] := by
        rw [h.load_slot hpc]
        exact h.ring.front hstock
      refine Channel.Step.get s.channel (s.buf slot) (s.produced.drop (s.consumed.length + 1)) ?_
      simp only [Channel.pending, State.channel, hfront]
      exact List.drop_eq_getElem_cons hstock
  | _ =>
      simp only [consumerThread, hpc, reduceCtorEq] at hs
      try split_ifs at hs
      all_goals cases hs
      all_goals exact Channel.Step.idle s.channel

theorem channel_step {a : Actor N} (h : Inv s) (hs : step s a = some s') :
    Channel.Step bufNum s.channel s'.channel := by
  cases a with
  | init =>
      cases hpc : s.initPc <;> simp only [step, npNcInit, hpc, reduceCtorEq] at hs
      all_goals try split_ifs at hs
      all_goals cases hs
      all_goals exact Channel.Step.idle s.channel
  | producer j => exact channel_producer h hs
  | consumer j => exact channel_consumer h hs

/-- np-nc refines the bounded channel: a run is a run of the channel. -/
theorem channel_exec {as : List (Actor N)} (h : exec step (initial N) as = some s) :
    Relation.ReflTransGen (Channel.Step bufNum) ⟨[], []⟩ s.channel :=
  (exec_invariant
    (I := fun t => Inv t ∧ Relation.ReflTransGen (Channel.Step bufNum) ⟨[], []⟩ t.channel)
    (fun _ _ _ hI hs => ⟨inv_step hI.1 hs, hI.2.tail (channel_step hI.1 hs)⟩)
    ⟨inv_initial N, Relation.ReflTransGen.refl⟩ h).2

/-- The safety of the bounded buffer in one state. Good number `k` lives in slot
`k % BUF_NUM`, so a producer about to write meets only slots of goods already read. -/
structure BoundedBufferSafe (s : State N) : Prop where
  fifo : s.consumed <+: s.produced
  inRange : s.inPos < bufNum
  outRange : s.outPos < bufNum
  unreadNonneg : (0 : ℤ) ≤ s.produced.length - s.consumed.length
  unreadLe : (s.produced.length : ℤ) - s.consumed.length ≤ bufNum
  unreadIntact : ∀ k, s.consumed.length ≤ k → ∀ hk : k < s.produced.length,
    s.buf (k % bufNum) = s.produced[k]
  writesInTurn : ∀ j slot, (s.producer j).pc = .storeBuf slot →
    slot = s.produced.length % bufNum
  noOverwrite : ∀ j slot, (s.producer j).pc = .storeBuf slot →
    ∀ k, s.consumed.length ≤ k → k < s.produced.length → k % bufNum ≠ slot

theorem np_nc_bounded_buffer_safe (N : ℕ) (as : List (Actor N)) (s : State N)
    (h : exec step (initial N) as = some s) : BoundedBufferSafe s := by
  have hinv := inv_exec h
  have hsound : s.channel.Sound bufNum :=
    Channel.Sound.run ⟨List.nil_prefix, Nat.zero_le _⟩ (channel_exec h)
  have hlen : s.consumed.length ≤ s.produced.length := hsound.fifo.length_le
  have hbound := hsound.bounded
  simp only [Channel.pending, State.channel, List.length_drop] at hbound
  refine ⟨hsound.fifo, hinv.positions.inLt, hinv.positions.outLt, by omega, by omega,
    fun k hr hk => hinv.ring k hr hk, fun j slot hpc => hinv.store_slot hpc, ?_⟩
  intro j slot hpc k hr hk
  rw [hinv.store_slot hpc]
  exact mod_ne_of_lt_revolution hk (by have := hinv.store_room hpc; omega)

/-- One pair: the producer fills slot 0 and goes round once, then the consumer reads it. -/
def onePairTurn : List (Actor 1) :=
  List.replicate 4 .init ++ List.replicate 14 (.producer 0) ++ List.replicate 13 (.consumer 0)

theorem np_nc_bounded_buffer_safe_one_pair :
    ∃ s, exec step (initial 1) onePairTurn = some s ∧ s.consumed = [101] ∧
      BoundedBufferSafe s := by
  obtain ⟨s, hs, hc⟩ : ∃ s, exec step (initial 1) onePairTurn = some s ∧
      (s.consumed == [101]) = true := exists_of_exec_any _ _ _ (by decide +kernel)
  exact ⟨s, hs, by simpa using hc, np_nc_bounded_buffer_safe 1 onePairTurn s hs⟩

end NpNc
