import LinuxDriver.NpNcSafety

/-!
# How np-nc ends

A state in which no thread can move is analysed through the same counts as the ring, with two
more: `cflag` lags behind the reads by the consumers that still have to increment it, and the
goods written add up over the producers' turns. A consumer that passes the loop test adds one
to `cflag` plus the consumers inside the loop, and this sum never falls. The module ends with
every thread returned and exactly `CNUM` goods consumed precisely when there are at most three
pairs and no consumer passes its test once that sum has reached `CNUM`.
-/

open Interleaving ThreadTally BoundedQueue

namespace NpNc

variable {N : ℕ} {s s' : State N}

/-- Has read a good that `cflag` does not count yet. -/
def ConsumerPc.uncounted : ConsumerPc → ℕ
  | .printGoods | .rereadOut | .storeOut _ | .upMutex | .upS1 | .incFlag => 1
  | _ => 0

/-- Between a passed test of `cflag` and the increment that ends the turn. -/
def ConsumerPc.inside : ConsumerPc → ℕ
  | .peekS2 | .downS2 | .downMutex | .readOut | .loadBuf _ | .printGoods | .rereadOut
  | .storeOut _ | .upMutex | .upS1 | .incFlag => 1
  | _ => 0

/-- Has written the good of the current turn. -/
def ProducerPc.turnDone : ProducerPc → ℕ
  | .printGoods | .rereadIn | .storeIn _ | .upMutex | .upS2 | .decNum => 1
  | _ => 0

/-- The goods one producer has written so far. -/
def Producer.made (p : Producer) : ℕ := NpNc.pNum - p.pNum + p.pc.turnDone

/-- What `p_num` can be at each program point. -/
def Producer.InTurn (p : Producer) : Prop :=
  match p.pc with
  | .unborn | .start => p.pNum = NpNc.pNum
  | .test => p.pNum ≤ NpNc.pNum
  | .returned => p.pNum = 0
  | _ => 0 < p.pNum ∧ p.pNum ≤ NpNc.pNum

structure Ledger (s : State N) : Prop where
  flag : s.consumed.length = s.cflag + s.consumers ConsumerPc.uncounted
  made : s.produced.length = tally Producer.made s.producer
  turns : ∀ j, (s.producer j).InTurn

theorem Ledger.moveProducer {j : Fin N} {p : Producer} (h : Ledger s)
    (hp : s'.producer = Function.update s.producer j p) (hc : s'.consumer = s.consumer)
    (hf : s'.cflag = s.cflag) (hg : s'.consumed = s.consumed)
    (hk : s'.produced.length + (s.producer j).made = s.produced.length + p.made)
    (ht : p.InTurn) : Ledger s' := by
  have hmade := tally_update Producer.made s.producer j p
  refine ⟨?_, ?_, fun k => ?_⟩
  · rw [hg, hf, State.consumers_congr hc]
    exact h.flag
  · have hold := h.made
    rw [hp]
    omega
  · rw [hp]
    by_cases hkj : k = j
    · subst k
      rw [Function.update_self]
      exact ht
    · rw [Function.update_of_ne hkj]
      exact h.turns k

theorem Ledger.moveConsumer {j : Fin N} {c : Consumer} (h : Ledger s)
    (hc : s'.consumer = Function.update s.consumer j c) (hp : s'.producer = s.producer)
    (hg : s'.produced = s.produced)
    (hk : s'.consumed.length + s.cflag + (s.consumer j).pc.uncounted =
      s.consumed.length + s'.cflag + c.pc.uncounted) : Ledger s' := by
  have hu := State.consumers_of_update hc ConsumerPc.uncounted
  have hold := h.flag
  refine ⟨by omega, ?_, fun k => ?_⟩
  · rw [hg, hp]
    exact h.made
  · rw [hp]
    exact h.turns k

theorem ledger_producer {j : Fin N} (h : Ledger s) (hs : productorThread s j = some s') :
    Ledger s' := by
  have ht := h.turns j
  cases hpc : (s.producer j).pc <;> simp only [productorThread, hpc, reduceCtorEq] at hs
  all_goals try split_ifs at hs
  all_goals cases hs
  all_goals
    simp only [Producer.InTurn, hpc] at ht
    refine h.moveProducer rfl rfl rfl rfl ?_ ?_ <;>
      simp only [State.producerAt, State.setProducer, Producer.made, Producer.InTurn, hpc,
        ProducerPc.turnDone, List.length_append, List.length_singleton]
  all_goals omega

theorem ledger_consumer {j : Fin N} (h : Ledger s) (hs : consumerThread s j = some s') :
    Ledger s' := by
  cases hpc : (s.consumer j).pc <;> simp only [consumerThread, hpc, reduceCtorEq] at hs
  all_goals try split_ifs at hs
  all_goals cases hs
  all_goals
    refine h.moveConsumer rfl rfl rfl ?_
    simp only [State.consumerAt, State.setConsumer, hpc, ConsumerPc.uncounted,
      List.length_append, List.length_singleton]
  all_goals omega

theorem ledger_init (hinv : Inv s) (h : Ledger s) (hs : npNcInit s = some s') : Ledger s' := by
  cases hpc : s.initPc with
  | loop i =>
      simp only [npNcInit, hpc] at hs
      split_ifs at hs
      all_goals cases hs
      all_goals exact ⟨h.1, h.2, h.3⟩
  | forkProducer j =>
      have hun : (s.producer j).pc = .unborn :=
        (hinv.forked.producer j).2 (by rw [hpc]; exact le_rfl)
      have ht := h.turns j
      simp only [npNcInit, hpc, Option.some.injEq] at hs
      subst s'
      refine h.moveProducer (j := j) rfl rfl rfl rfl ?_ ?_
      · simp [State.producerAt, State.setProducer, Producer.made, hun, ProducerPc.turnDone]
      · simpa only [Producer.InTurn, hun] using ht
  | forkConsumer j =>
      have hun : (s.consumer j).pc = .unborn :=
        (hinv.forked.consumer j).2 (by rw [hpc]; exact le_rfl)
      simp only [npNcInit, hpc, Option.some.injEq] at hs
      subst s'
      refine h.moveConsumer (j := j) rfl rfl rfl ?_
      simp [State.consumerAt, State.setConsumer, hun, ConsumerPc.uncounted]
  | returned => simp [npNcInit, hpc] at hs

theorem ledger_step {a : Actor N} (hinv : Inv s) (h : Ledger s) (hs : step s a = some s') :
    Ledger s' := by
  cases a with
  | init => exact ledger_init hinv h hs
  | producer j => exact ledger_producer h hs
  | consumer j => exact ledger_consumer h hs

theorem ledger_initial (N : ℕ) : Ledger (initial N) := by
  refine ⟨?_, ?_, fun _ => rfl⟩
  · exact ((Nat.zero_add _).trans ((tally_eq_zero_iff _ _).2 fun _ => rfl)).symm
  · exact ((tally_eq_zero_iff _ _).2 fun _ => rfl).symm

theorem ledger_exec {as : List (Actor N)} (h : exec step (initial N) as = some s) : Ledger s :=
  (exec_invariant (I := fun t => Inv t ∧ Ledger t)
    (fun _ _ _ hI hs => ⟨inv_step hI.1 hs, ledger_step hI.1 hI.2 hs⟩)
    ⟨inv_initial N, ledger_initial N⟩ h).2

/-! ## States in which nobody can move -/

theorem productorThread_eq_none {j : Fin N} (h : productorThread s j = none) :
    (s.producer j).pc = .unborn ∨ ((s.producer j).pc = .downS1 ∧ s.s1 = 0) ∨
      ((s.producer j).pc = .downMutex ∧ s.mutex = 0) ∨ (s.producer j).pc = .returned := by
  cases hpc : (s.producer j).pc <;> simp_all [productorThread]
  split_ifs at h

theorem consumerThread_eq_none {j : Fin N} (h : consumerThread s j = none) :
    (s.consumer j).pc = .unborn ∨ ((s.consumer j).pc = .downS2 ∧ s.s2 = 0) ∨
      ((s.consumer j).pc = .downMutex ∧ s.mutex = 0) ∨ (s.consumer j).pc = .returned := by
  cases hpc : (s.consumer j).pc <;> simp_all [consumerThread]
  split_ifs at h

theorem npNcInit_eq_none (h : npNcInit s = none) : s.initPc = .returned := by
  cases hpc : s.initPc <;> simp_all [npNcInit]
  split_ifs at h

/-- A stuck state: every thread has returned or waits for a slot or a good that is not
there, and nothing is in transit. -/
structure Quiescent (s : State N) : Prop where
  producers : ∀ j, ((s.producer j).pc = .downS1 ∧ s.s1 = 0) ∨ (s.producer j).pc = .returned
  consumers : ∀ j, ((s.consumer j).pc = .downS2 ∧ s.s2 = 0) ∨ (s.consumer j).pc = .returned
  slots : s.s1 + s.s2 = bufNum
  stock : s.produced.length = s.consumed.length + s.s2
  flag : s.consumed.length = s.cflag

theorem producers_eq_zero_of_stuck {w : ProducerPc → ℕ} (hstuck : Stuck step s)
    (hunborn : w .unborn = 0) (hdownS1 : w .downS1 = 0) (hdownMutex : w .downMutex = 0)
    (hreturned : w .returned = 0) : s.producers w = 0 := by
  refine (tally_eq_zero_iff _ _).2 fun j => ?_
  rcases productorThread_eq_none (hstuck (.producer j)) with h | ⟨h, _⟩ | ⟨h, _⟩ | h
  · rw [h, hunborn]
  · rw [h, hdownS1]
  · rw [h, hdownMutex]
  · rw [h, hreturned]

theorem consumers_eq_zero_of_stuck {w : ConsumerPc → ℕ} (hstuck : Stuck step s)
    (hunborn : w .unborn = 0) (hdownS2 : w .downS2 = 0) (hdownMutex : w .downMutex = 0)
    (hreturned : w .returned = 0) : s.consumers w = 0 := by
  refine (tally_eq_zero_iff _ _).2 fun j => ?_
  rcases consumerThread_eq_none (hstuck (.consumer j)) with h | ⟨h, _⟩ | ⟨h, _⟩ | h
  · rw [h, hunborn]
  · rw [h, hdownS2]
  · rw [h, hdownMutex]
  · rw [h, hreturned]

/-- The owner of the mutex can always move, so in a stuck state the mutex is free. -/
theorem mutex_ne_zero_of_stuck (hinv : Inv s) (hstuck : Stuck step s) : s.mutex ≠ 0 := by
  intro hm
  have ho := hinv.counts.owner
  rw [hm, producers_eq_zero_of_stuck hstuck rfl rfl rfl rfl,
    producers_eq_zero_of_stuck hstuck rfl rfl rfl rfl,
    consumers_eq_zero_of_stuck hstuck rfl rfl rfl rfl,
    consumers_eq_zero_of_stuck hstuck rfl rfl rfl rfl] at ho
  omega

theorem quiescent_of_stuck (hinv : Inv s) (hled : Ledger s) (hstuck : Stuck step s) :
    Quiescent s := by
  have hm := mutex_ne_zero_of_stuck hinv hstuck
  have hinit := npNcInit_eq_none (hstuck .init)
  have hp : ∀ j, ((s.producer j).pc = .downS1 ∧ s.s1 = 0) ∨ (s.producer j).pc = .returned := by
    intro j
    rcases productorThread_eq_none (hstuck (.producer j)) with h | h | ⟨_, h⟩ | h
    · have hle := (hinv.forked.producer j).1 h
      rw [hinit] at hle
      exact absurd j.isLt (Nat.not_lt.2 hle)
    · exact Or.inl h
    · exact absurd h hm
    · exact Or.inr h
  have hc : ∀ j, ((s.consumer j).pc = .downS2 ∧ s.s2 = 0) ∨ (s.consumer j).pc = .returned := by
    intro j
    rcases consumerThread_eq_none (hstuck (.consumer j)) with h | h | ⟨_, h⟩ | h
    · have hle := (hinv.forked.consumer j).1 h
      rw [hinit] at hle
      exact absurd j.isLt (Nat.not_lt.2 hle)
    · exact Or.inl h
    · exact absurd h hm
    · exact Or.inr h
  have hpz : ∀ w : ProducerPc → ℕ, w .downS1 = 0 → w .returned = 0 → s.producers w = 0 := by
    intro w h1 h2
    refine (tally_eq_zero_iff _ _).2 fun j => ?_
    rcases hp j with ⟨h, _⟩ | h
    · rw [h, h1]
    · rw [h, h2]
  have hcz : ∀ w : ConsumerPc → ℕ, w .downS2 = 0 → w .returned = 0 → s.consumers w = 0 := by
    intro w h1 h2
    refine (tally_eq_zero_iff _ _).2 fun j => ?_
    rcases hc j with ⟨h, _⟩ | h
    · rw [h, h1]
    · rw [h, h2]
  refine ⟨hp, hc, ?_, ?_, ?_⟩
  · have hslots := hinv.counts.slots
    rw [hpz _ rfl rfl, hpz _ rfl rfl, hcz _ rfl rfl, hcz _ rfl rfl] at hslots
    exact hslots
  · have hstock := hinv.counts.stock
    rw [hpz _ rfl rfl, hcz _ rfl rfl] at hstock
    exact hstock
  · have hflag := hled.flag
    rw [hcz _ rfl rfl] at hflag
    exact hflag

theorem Producer.InTurn.made_le {p : Producer} (h : p.InTurn) : p.made ≤ NpNc.pNum := by
  cases hpc : p.pc <;> simp only [Producer.InTurn, hpc] at h <;>
    simp only [Producer.made, hpc, ProducerPc.turnDone] <;> omega

theorem Ledger.produced_eq (h : Ledger s) (hret : ∀ j, (s.producer j).pc = .returned) :
    s.produced.length = N * pNum := by
  rw [h.made]
  calc tally Producer.made s.producer = ∑ _j : Fin N, pNum := Finset.sum_congr rfl fun j _ => by
        have ht := h.turns j
        simp only [Producer.InTurn, hret j] at ht
        simp only [Producer.made, hret j, ProducerPc.turnDone, ht]
        rfl
    _ = N * pNum := by simp

theorem Ledger.produced_lt {j : Fin N} (h : Ledger s) (hj : (s.producer j).pc = .downS1) :
    s.produced.length < N * pNum := by
  have hlt : (s.producer j).made < pNum := by
    have ht := h.turns j
    simp only [Producer.InTurn, hj] at ht
    simp only [Producer.made, hj, ProducerPc.turnDone]
    omega
  rw [h.made]
  calc tally Producer.made s.producer < ∑ _j : Fin N, pNum :=
        Finset.sum_lt_sum (fun k _ => (h.turns k).made_le) ⟨j, Finset.mem_univ j, hlt⟩
    _ = N * pNum := by simp

/-! ## The consumers inside the loop -/

/-- `cflag` together with the consumers that will still increment it. -/
def State.committed (s : State N) : ℕ := s.cflag + s.consumers ConsumerPc.inside

/-- A consumer passes the loop test only while fewer than `CNUM` turns are committed. -/
def MayEnter (s : State N) : Actor N → Prop
  | .consumer j =>
      (s.consumer j).pc = .test → s.cflag ≠ cNum → s.committed < cNum
  | _ => True

theorem State.committed_of_update {j : Fin N} {c : Consumer} (n : ℕ)
    (hc : s'.consumer = Function.update s.consumer j c)
    (hk : s'.cflag + c.pc.inside = s.cflag + (s.consumer j).pc.inside + n) :
    s'.committed = s.committed + n := by
  have hin := State.consumers_of_update hc ConsumerPc.inside
  simp only [committed]
  omega

/-- Passing the test is the only step of a consumer that commits another turn. -/
theorem committed_consumer {j : Fin N} (hs : consumerThread s j = some s') :
    ((s.consumer j).pc = .test ∧ s.cflag ≠ cNum ∧ s'.committed = s.committed + 1) ∨
      (¬ ((s.consumer j).pc = .test ∧ s.cflag ≠ cNum) ∧ s'.committed = s.committed) := by
  cases hpc : (s.consumer j).pc <;> simp only [consumerThread, hpc, reduceCtorEq] at hs
  case test =>
    split_ifs at hs with hflag
    · cases hs
      exact Or.inl ⟨rfl, hflag, State.committed_of_update 1 rfl (by rw [hpc]; rfl)⟩
    · cases hs
      exact Or.inr ⟨fun h => hflag h.2, State.committed_of_update 0 rfl (by rw [hpc]; rfl)⟩
  all_goals try split_ifs at hs
  all_goals cases hs
  all_goals
    refine Or.inr ⟨fun h => by simp at h, State.committed_of_update 0 rfl ?_⟩
    rw [hpc]
    rfl

theorem committed_eq {a : Actor N} (ha : ∀ j, a ≠ .consumer j) (hinv : Inv s)
    (hs : step s a = some s') : s'.committed = s.committed := by
  cases a with
  | init =>
      cases hpc : s.initPc with
      | forkConsumer j =>
          have hun : (s.consumer j).pc = .unborn :=
            (hinv.forked.consumer j).2 (by rw [hpc]; exact le_rfl)
          simp only [step, npNcInit, hpc, Option.some.injEq] at hs
          subst s'
          exact State.committed_of_update (j := j) 0 rfl (by rw [hun]; rfl)
      | _ =>
          simp only [step, npNcInit, hpc, reduceCtorEq] at hs
          try split_ifs at hs
          all_goals cases hs
          all_goals rfl
  | producer j =>
      obtain ⟨_, _, _, _, hframe⟩ := productorThread_frame hs
      rw [State.committed, State.committed, State.consumers_congr hframe.consumer, hframe.cflag]
  | consumer j => exact absurd rfl (ha j)

theorem committed_mono {a : Actor N} (hinv : Inv s) (hs : step s a = some s') :
    s.committed ≤ s'.committed := by
  cases a with
  | consumer j =>
      rcases committed_consumer hs with ⟨_, _, h⟩ | ⟨_, h⟩ <;> omega
  | init => exact (committed_eq (by simp) hinv hs).ge
  | producer j => exact (committed_eq (by simp) hinv hs).ge

/-- A consumer that enters too late commits a turn beyond `CNUM`. -/
theorem committed_exceeds {a : Actor N} (hs : step s a = some s') (ha : ¬ MayEnter s a) :
    cNum < s'.committed := by
  cases a with
  | consumer j =>
      simp only [MayEnter, Classical.not_imp, not_lt] at ha
      obtain ⟨hpc, hflag, hle⟩ := ha
      rcases committed_consumer hs with ⟨_, _, h⟩ | ⟨hno, _⟩
      · omega
      · exact absurd ⟨hpc, hflag⟩ hno
  | init => exact absurd trivial ha
  | producer j => exact absurd trivial ha

/-- While every entry is in time, at most `CNUM` turns are committed, and a consumer returns
only when all of them are counted. -/
structure InTime (s : State N) : Prop where
  bound : s.committed ≤ cNum
  returned : ∀ j, (s.consumer j).pc = .returned → s.cflag = cNum

theorem consumerThread_cflag {j : Fin N} (hs : consumerThread s j = some s') :
    s'.cflag = s.cflag ∨ (s.consumer j).pc = .incFlag := by
  cases hpc : (s.consumer j).pc <;> simp only [consumerThread, hpc, reduceCtorEq] at hs
  case incFlag => exact Or.inr rfl
  all_goals try split_ifs at hs
  all_goals cases hs
  all_goals exact Or.inl rfl

theorem consumerThread_returned {j k : Fin N} (hs : consumerThread s j = some s')
    (hk : (s'.consumer k).pc = .returned) :
    (s.consumer k).pc = .returned ∨ s'.cflag = cNum := by
  by_cases hkj : k = j
  · subst k
    cases hpc : (s.consumer j).pc <;> simp only [consumerThread, hpc, reduceCtorEq] at hs
    case test =>
      split_ifs at hs with hflag
      · cases hs
        simp [State.consumerAt, State.setConsumer] at hk
      · cases hs
        exact Or.inr (not_not.1 hflag)
    all_goals try split_ifs at hs
    all_goals cases hs
    all_goals simp [State.consumerAt, State.setConsumer] at hk
  · obtain ⟨c, hc, -, -, -⟩ := consumerThread_frame hs
    rw [hc, Function.update_of_ne hkj] at hk
    exact Or.inl hk

theorem inTime_consumer {j : Fin N} (h : InTime s) (hok : MayEnter s (.consumer j))
    (hs : consumerThread s j = some s') : InTime s' := by
  have hbound := h.bound
  refine ⟨?_, fun k hk => ?_⟩
  · rcases committed_consumer hs with ⟨hpc, hflag, he⟩ | ⟨_, he⟩
    · have hlt := hok hpc hflag
      omega
    · omega
  · rcases consumerThread_returned hs hk with hold | hnow
    · have hc := h.returned k hold
      rcases consumerThread_cflag hs with hsame | hpc
      · rw [hsame, hc]
      · -- a consumer at `cflag++` is committed beyond the goods already counted
        have hin := s.le_consumers ConsumerPc.inside j
        simp only [hpc, ConsumerPc.inside] at hin
        simp only [State.committed] at hbound
        omega
    · exact hnow

theorem inTime_step {a : Actor N} (hinv : Inv s) (h : InTime s) (hok : MayEnter s a)
    (hs : step s a = some s') : InTime s' := by
  cases a with
  | consumer j => exact inTime_consumer h hok hs
  | producer j =>
      refine ⟨(committed_eq (by simp) hinv hs).le.trans h.bound, fun k hk => ?_⟩
      obtain ⟨_, _, _, _, hframe⟩ := productorThread_frame hs
      rw [hframe.consumer] at hk
      rw [hframe.cflag]
      exact h.returned k hk
  | init =>
      refine ⟨(committed_eq (by simp) hinv hs).le.trans h.bound, fun k hk => ?_⟩
      cases hpc : s.initPc with
      | forkConsumer j =>
          simp only [step, npNcInit, hpc, Option.some.injEq] at hs
          subst s'
          by_cases hkj : k = j
          · subst k
            simp [State.consumerAt, State.setConsumer] at hk
          · exact h.returned k (by simpa [State.consumerAt, State.setConsumer, hkj] using hk)
      | _ =>
          simp only [step, npNcInit, hpc, reduceCtorEq] at hs
          try split_ifs at hs
          all_goals cases hs
          all_goals exact h.returned k hk

theorem inTime_initial (N : ℕ) : InTime (initial N) := by
  refine ⟨?_, fun j hj => by simp [initial] at hj⟩
  have hz : (initial N).committed = 0 :=
    (Nat.zero_add _).trans ((tally_eq_zero_iff _ _).2 fun _ => rfl)
  omega

theorem inTime_exec {as : List (Actor N)} (hok : Meets step MayEnter (initial N) as)
    (h : exec step (initial N) as = some s) : InTime s :=
  (exec_invariant_of_meets (I := fun t => Inv t ∧ InTime t)
    (fun _ _ _ hI ha hs => ⟨inv_step hI.1 hs, inTime_step hI.1 hI.2 ha hs⟩)
    ⟨inv_initial N, inTime_initial N⟩ hok h).2

structure WoundDown (s : State N) : Prop where
  producers : ∀ j, (s.producer j).pc = .returned
  consumers : ∀ j, (s.consumer j).pc = .returned
  consumed : s.consumed.length = cNum
  flag : s.cflag = cNum

theorem woundDown_of_inTime (hN : 1 ≤ N) (hN3 : N ≤ 3) (hled : Ledger s) (hq : Quiescent s)
    (hin : InTime s) : WoundDown s := by
  obtain ⟨hp, hc, hslots, hstock, hflag⟩ := hq
  have hbound := hin.bound
  simp only [State.committed, cNum, bufNum] at hbound hslots
  -- a consumer waiting for goods would find the ring empty after all `5 * N` of them
  have hcret : ∀ j, (s.consumer j).pc = .returned := by
    intro j
    rcases hc j with ⟨hj, hs2⟩ | hret
    swap
    · exact hret
    have hpret : ∀ k, (s.producer k).pc = .returned := by
      intro k
      rcases hp k with ⟨_, hs1⟩ | hret
      · omega
      · exact hret
    have hmade := hled.produced_eq hpret
    have hle := s.le_consumers ConsumerPc.inside j
    simp only [hj, ConsumerPc.inside] at hle
    simp only [pNum] at hmade
    omega
  have hcflag : s.cflag = cNum := hin.returned ⟨0, hN⟩ (hcret _)
  -- a producer waiting for a slot would have at least 15 goods written by 3 producers
  have hpret : ∀ j, (s.producer j).pc = .returned := by
    intro j
    rcases hp j with ⟨hj, hs1⟩ | hret
    swap
    · exact hret
    have hlt := hled.produced_lt hj
    simp only [pNum, cNum] at hlt hcflag
    omega
  exact ⟨hpret, hcret, hflag.trans hcflag, hcflag⟩

theorem WoundDown.at_most_three (h : WoundDown s) (hled : Ledger s) (hq : Quiescent s) :
    N ≤ 3 := by
  have hmade := hled.produced_eq h.producers
  have hstock := hq.stock
  have hslots := hq.slots
  have hcons := h.consumed
  simp only [pNum, bufNum, cNum] at hmade hslots hcons
  omega

theorem WoundDown.committed (h : WoundDown s) : s.committed = cNum := by
  have hz : s.consumers ConsumerPc.inside = 0 :=
    (tally_eq_zero_iff _ _).2 fun j => by rw [h.consumers j]; rfl
  rw [State.committed, hz, h.flag, Nat.add_zero]

/-- A run of `N ≥ 1` pairs that has come to rest has wound down exactly when `N ≤ 3` and no
consumer entered its loop body too late. -/
theorem np_nc_winds_down_iff (N : ℕ) (hN : 1 ≤ N) (as : List (Actor N)) (s : State N)
    (h : exec step (initial N) as = some s) (hstuck : Stuck step s) :
    WoundDown s ↔ N ≤ 3 ∧ Meets step MayEnter (initial N) as := by
  have hled := ledger_exec h
  have hq := quiescent_of_stuck (inv_exec h) hled hstuck
  constructor
  · intro hw
    refine ⟨hw.at_most_three hled hq, ?_⟩
    exact meets_of_bounded (I := Inv) (fun _ _ _ hI hs => inv_step hI hs)
      (fun _ _ _ hI hs => committed_mono hI hs) (fun _ _ _ _ hs ha => committed_exceeds hs ha)
      (inv_initial N) h hw.committed.le
  · rintro ⟨hN3, hok⟩
    exact woundDown_of_inTime hN hN3 hled hq (inTime_exec hok h)

/-- One pair: five goods are written, read and counted. -/
def onePairRun : List (Actor 1) :=
  List.replicate 4 .init ++ List.replicate 62 (.producer (Fin.last 0)) ++
    List.replicate 62 (.consumer (Fin.last 0))

theorem np_nc_winds_down_one_pair : ∃ s, exec step (initial 1) onePairRun = some s ∧
    Stuck step s ∧ s.consumed.length = 5 ∧
    (WoundDown s ↔ 1 ≤ 3 ∧ Meets step MayEnter (initial 1) onePairRun) := by
  obtain ⟨s, hs, hc⟩ : ∃ s, exec step (initial 1) onePairRun = some s ∧
      ((step s .init).isNone && (step s (.producer 0)).isNone && (step s (.consumer 0)).isNone &&
        s.consumed.length == 5) = true := exists_of_exec_any _ _ _ (by decide +kernel)
  simp only [Bool.and_eq_true, beq_iff_eq, Option.isNone_iff_eq_none] at hc
  obtain ⟨⟨⟨hi, hp⟩, hcons⟩, hl⟩ := hc
  have hstuck : Stuck step s := by
    rintro (_ | j | j)
    · exact hi
    · rwa [Subsingleton.elim j 0]
    · rwa [Subsingleton.elim j 0]
  exact ⟨s, hs, hstuck, hl, np_nc_winds_down_iff 1 le_rfl onePairRun s hs hstuck⟩

def twoPairActors : List (Actor 2) :=
  [.init, .producer 0, .producer 1, .consumer 0, .consumer 1]

theorem stuck_of_twoPairActors {s : State 2}
    (h : twoPairActors.all (fun a => (step s a).isNone) = true) : Stuck step s := by
  rw [List.all_eq_true] at h
  intro a
  have ha : a ∈ twoPairActors := by
    rcases a with _ | j | j
    · decide
    · exact (by decide : ∀ j : Fin 2, Actor.producer j ∈ twoPairActors) j
    · exact (by decide : ∀ j : Fin 2, Actor.consumer j ∈ twoPairActors) j
  simpa using h a ha

/-- Both producers write their five goods. Consumer 0 takes four goods and passes the test
again, consumer 1 passes it too, and both take a good: `cflag` goes from 4 to 6. They then
take the remaining goods and wait for one that nobody will write. -/
def overrun : List (Actor 2) :=
  List.replicate 7 .init ++ List.replicate 62 (.producer 0) ++ List.replicate 62 (.producer 1) ++
    List.replicate 50 (.consumer 0) ++ List.replicate 13 (.consumer 1) ++
    List.replicate 11 (.consumer 0) ++ List.replicate 50 (.consumer 0) ++
    List.replicate 2 (.consumer 1)

theorem np_nc_overrun : ∃ s, exec step (initial 2) overrun = some s ∧ Stuck step s ∧
    (s.consumer 0).pc = .downS2 ∧ (s.consumer 1).pc = .downS2 ∧
    s.consumed.length = 10 ∧ s.cflag = 10 ∧ ¬ WoundDown s := by
  obtain ⟨s, hs, hc⟩ : ∃ s, exec step (initial 2) overrun = some s ∧
      (twoPairActors.all (fun a => (step s a).isNone) && (s.consumer 0).pc == .downS2 &&
        (s.consumer 1).pc == .downS2 && s.consumed.length == 10 && s.cflag == 10) = true :=
    exists_of_exec_any _ _ _ (by decide +kernel)
  simp only [Bool.and_eq_true, beq_iff_eq] at hc
  obtain ⟨⟨⟨⟨hst, h0⟩, h1⟩, hl⟩, hf⟩ := hc
  refine ⟨s, hs, stuck_of_twoPairActors hst, h0, h1, hl, hf, fun hw => ?_⟩
  have := hw.flag
  simp [hf, cNum] at this

end NpNc
