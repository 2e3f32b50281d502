import LinuxDriver.MutexFault

/-!
# What reads of the mutex driver reveal

`my_init` takes the block from `kmalloc` as it is. Two runs from two blocks go through the same
steps, and differ in the bytes that no write has stored to yet.
-/

open UserCopy

namespace MutexDriver

variable {ι : Type*}

/-- What a section gave to its caller's buffer. -/
def Section.delivered (s : Section ι) : List UInt8 :=
  match s.call with
  | .read _ => s.moved
  | .write _ => []

def World.deliveries (w : World ι) : List (List UInt8) := w.sections.map Section.delivered

/-- How far a section stores into the block. -/
def Section.stretch (pads : Bool) (s : Section ι) : ℕ :=
  match s.call with
  | .read _ => 0
  | .write _ => (s.moved ++ padding pads s.call s.moved).length

/-- Each read keeps to the first `n` bytes of the block, and `n` grows with the writes on the
way. -/
def ReadsCovered (pads : Bool) : ℕ → List (Section ι) → Prop
  | _, [] => True
  | n, s :: ss => s.delivered.length ≤ n ∧ ReadsCovered pads (max n (s.stretch pads)) ss

/-! ## What does not depend on the block -/

def Call.hide (moved : List UInt8) : Call → List UInt8
  | .read _ => List.replicate moved.length 0
  | .write _ => moved

def Stage.hide (c : Call) : Stage → Stage
  | .lock => .lock
  | .copy moved => .copy (c.hide moved)
  | .fill moved filled => .fill (c.hide moved) filled
  | .copied moved ret => .copied (c.hide moved) ret
  | .unlock moved result => .unlock (c.hide moved) result
  | .done moved result => .done (c.hide moved) result

def Memory.hide (m : Memory ι) : Memory ι := { m with resource := fun _ => 0 }

def Section.hide (s : Section ι) : Section ι := { s with moved := s.call.hide s.moved }

/-- A world without the block and without what its reads have moved. -/
def World.hide (w : World ι) : World ι where
  memory := w.memory.hide
  caller i := (w.caller i).map fun c => (c.1, c.2.hide c.1)
  lockOrder := w.lockOrder
  sections := w.sections.map Section.hide

@[simp] theorem length_hide (c : Call) (moved : List UInt8) :
    (c.hide moved).length = moved.length := by
  cases c with
  | read count => exact List.length_replicate
  | write count => rfl

@[simp] theorem Call.hide_hide (c : Call) (moved : List UInt8) :
    c.hide (c.hide moved) = c.hide moved := by
  cases c with
  | read count => simp [Call.hide]
  | write count => rfl

@[simp] theorem Stage.hide_hide (c : Call) (stage : Stage) :
    (stage.hide c).hide c = stage.hide c := by
  cases stage <;> simp [Stage.hide]

@[simp] theorem Section.hide_hide (s : Section ι) : s.hide.hide = s.hide := by
  simp [Section.hide]

@[simp] theorem World.hide_hide (w : World ι) : w.hide.hide = w.hide := by
  simp [World.hide, Memory.hide, Function.comp_def]

/-- A step of a call does not depend on the block, but for what a read moves. -/
theorem Call.step_hide (pads : Bool) (c : Call) (i : ι) (u : User) (m : Memory ι)
    (stage : Stage) :
    (c.step pads i u m stage).map (fun r => (r.1.hide, r.2.hide c)) =
      (c.step pads i u m.hide (stage.hide c)).map fun r => (r.1.hide, r.2.hide c) := by
  cases c with
  | read count =>
      cases stage with
      | lock =>
          by_cases hfree : m.resourceMutex = none <;>
            simp [Call.step, myRead, Stage.hide, Memory.hide, Call.hide, hfree]
      | copy moved =>
          have hlen : (Call.hide moved (.read count)).length = moved.length := length_hide _ _
          simp only [Call.step, myRead, Stage.hide, hlen]
          split_ifs <;> simp [Memory.hide, Call.hide]
      | fill moved filled => rfl
      | copied moved ret =>
          simp only [Call.step, myRead, Stage.hide]
          split_ifs <;> simp [Memory.hide]
      | unlock moved result => simp [Call.step, myRead, Stage.hide, Memory.hide]
      | done moved result => rfl
  | write count =>
      cases stage with
      | lock =>
          by_cases hfree : m.resourceMutex = none <;>
            simp [Call.step, myWrite, Stage.hide, Memory.hide, Call.hide, hfree]
      | copy moved =>
          simp only [Call.step, myWrite, Stage.hide, Call.hide]
          split_ifs <;> simp [Memory.hide]
      | fill moved filled =>
          simp only [Call.step, myWrite, Stage.hide, Call.hide]
          split_ifs <;> simp [Memory.hide]
      | copied moved ret =>
          simp only [Call.step, myWrite, Stage.hide, Call.hide]
          split_ifs <;> simp [Memory.hide]
      | unlock moved result => simp [Call.step, myWrite, Stage.hide, Memory.hide, Call.hide]
      | done moved result => rfl

theorem hide_record (w : World ι) (i : ι) (c : Call) (stage : Stage) :
    (w.record i c stage).hide = w.hide.record i c (stage.hide c) := by
  cases stage with
  | unlock moved result => simp [World.record, World.hide, Stage.hide, Section.hide]
  | lock => rfl
  | copy moved => rfl
  | fill moved filled => rfl
  | copied moved ret => rfl
  | done moved result => rfl

theorem caller_hide (w : World ι) (i : ι) :
    w.hide.caller i = (w.caller i).map fun c => (c.1, c.2.hide c.1) := rfl

section

variable [DecidableEq ι]

theorem hide_setCaller (w : World ι) (i : ι) (x : Option (Call × Stage)) :
    (w.setCaller i x).hide = w.hide.setCaller i (x.map fun c => (c.1, c.2.hide c.1)) := by
  have hupdate := Function.comp_update (Option.map fun c : Call × Stage => (c.1, c.2.hide c.1))
    w.caller i x
  unfold World.hide World.setCaller
  exact congrArg (fun f => World.mk w.memory.hide f w.lockOrder (w.sections.map Section.hide))
    hupdate

theorem hide_place (w : World ι) (i : ι) (c : Call) (stage : Stage) (r : Memory ι × Stage) :
    (({ w with memory := r.1 }.record i c stage).setCaller i (some (c, r.2))).hide =
      ({ w.hide with memory := r.1.hide }.record i c (stage.hide c)).setCaller i
        (some (c, r.2.hide c)) := by
  rw [hide_setCaller, hide_record]
  rfl

theorem step_hide (pads : Bool) (w : World ι) (a : Action ι) :
    (step pads w a).map World.hide = (step pads w.hide a).map World.hide := by
  cases a with
  | call i c =>
      cases hi : w.caller i with
      | none => simp [step, caller_hide, hi, hide_setCaller]
      | some x => simp [step, caller_hide, hi]
  | step i u =>
      cases hi : w.caller i with
      | none => simp [step, caller_hide, hi]
      | some x =>
          obtain ⟨c, stage⟩ := x
          have hhide := congrArg (Option.map fun r : Memory ι × Stage =>
            ({ w.hide with memory := r.1 }.record i c (stage.hide c)).setCaller i (some (c, r.2)))
            (c.step_hide pads i u w.memory stage)
          rw [Option.map_map, Option.map_map] at hhide
          have hcaller : w.hide.caller i = some (c, stage.hide c) := by
            rw [caller_hide, hi]
            rfl
          simp only [step, hi, hcaller, Option.map_map, Function.comp_def, hide_place,
            World.hide_hide, Stage.hide_hide]
          exact hhide
  | «return» i =>
      cases hi : w.caller i with
      | none => simp [step, caller_hide, hi]
      | some x =>
          obtain ⟨c, stage⟩ := x
          cases stage <;> simp [step, caller_hide, hi, Stage.hide, hide_setCaller]

/-- Whatever the block was, the schedule can be followed, and nothing else changes. -/
theorem exec_other_block {pads : Bool} {first : ℕ → UInt8} {schedule : List (Action ι)}
    {w : World ι} (h : Interleaving.exec (step pads) (initial first) schedule = some w)
    (second : ℕ → UInt8) : ∃ w', Interleaving.exec (step pads) (initial second) schedule = some w' ∧
      w'.hide = w.hide := by
  have hcongr : ∀ v v' : World ι, ∀ a, v.hide = v'.hide →
      (step pads v a).map World.hide = (step pads v' a).map World.hide := by
    intro v v' a hv
    rw [step_hide, hv, ← step_hide]
  have hstart : (initial first : World ι).hide = (initial second).hide := rfl
  have hexec := Interleaving.exec_congr hcongr hstart schedule
  rw [h, Option.map_some, eq_comm, Option.map_eq_some_iff] at hexec
  exact hexec

end

/-! ## Two histories with the same steps -/

variable {pads : Bool} {s s' : Section ι}

theorem effect_hide (s : Section ι) :
    (driver pads ι).effect s.hide = (driver pads ι).effect s := by
  obtain ⟨i, c, moved, result⟩ := s
  cases c with
  | read count => rfl
  | write count => rfl

theorem effect_eq_of_hide (pads : Bool) (h : s.hide = s'.hide) :
    (driver pads ι).effect s = (driver pads ι).effect s' := by
  rw [← effect_hide s, h, effect_hide]

theorem effect_of_lt {k : ℕ} (hk : k < s.stretch pads) (block block' : ℕ → UInt8) :
    (driver pads ι).effect s block k = (driver pads ι).effect s block' k := by
  obtain ⟨i, c, moved, result⟩ := s
  cases c with
  | read count => exact absurd hk (Nat.not_lt_zero k)
  | write count => exact (store_of_lt hk block).trans (store_of_lt hk block').symm

theorem effect_of_le {k : ℕ} (hk : s.stretch pads ≤ k) (block : ℕ → UInt8) :
    (driver pads ι).effect s block k = block k := by
  obtain ⟨i, c, moved, result⟩ := s
  cases c with
  | read count => rfl
  | write count => exact store_of_le hk block

theorem delivered_of_legal {block : ℕ → UInt8} (h : (driver pads ι).Legal block s) :
    s.delivered = load block s.delivered.length := by
  obtain ⟨i, c, moved, result⟩ := s
  cases c with
  | read count => exact h.1.2 count rfl
  | write count => rfl

theorem length_delivered_of_hide (h : s.hide = s'.hide) :
    s.delivered.length = s'.delivered.length := by
  obtain ⟨i, c, moved, result⟩ := s
  obtain ⟨i', c', moved', result'⟩ := s'
  obtain ⟨-, rfl, hmoved, -⟩ := Section.mk.inj h
  cases c with
  | read count =>
      have hlength := congrArg List.length hmoved
      rwa [length_hide, length_hide] at hlength
  | write count => rfl

theorem delivered_eq_iff {block block' : ℕ → UInt8} (halike : s.hide = s'.hide)
    (hs : (driver pads ι).Legal block s) (hs' : (driver pads ι).Legal block' s') :
    s.delivered = s'.delivered ↔ ∀ k < s.delivered.length, block k = block' k := by
  rw [delivered_of_legal hs', ← length_delivered_of_hide halike, ← load_congr,
    ← delivered_of_legal hs]

/-- Reads that keep to what was written deliver the same from two blocks. -/
theorem deliveries_eq_of_covered {ss ss' : List (Section ι)}
    (halike : ss.map Section.hide = ss'.map Section.hide) {block block' : ℕ → UInt8}
    (hs : (driver pads ι).Serial block ss) (hs' : (driver pads ι).Serial block' ss') {n : ℕ}
    (hagree : ∀ k < n, block k = block' k) (hcovered : ReadsCovered pads n ss) :
    ss.map Section.delivered = ss'.map Section.delivered := by
  induction ss generalizing ss' block block' n with
  | nil => rw [List.map_eq_nil_iff.1 halike.symm]
  | cons s ss ih =>
      obtain ⟨s', ss', rfl, hhide, hrest⟩ := List.map_eq_cons_iff.1 halike.symm
      have hfirst : s.delivered = s'.delivered := by
        rw [delivered_eq_iff hhide.symm hs.1 hs'.1]
        exact fun k hk => hagree k (Nat.lt_of_lt_of_le hk hcovered.1)
      have heffect := effect_eq_of_hide pads hhide
      rw [List.map_cons, List.map_cons, hfirst]
      refine congrArg _ (ih hrest.symm hs.2 hs'.2 ?_ hcovered.2)
      intro k hk
      rw [heffect]
      rcases Nat.lt_or_ge k (s.stretch pads) with hlt | hge
      · exact effect_of_lt hlt block block'
      · rw [effect_of_le hge, effect_of_le hge]
        exact hagree k (by omega)

/-- Reads that deliver the same from blocks that differ everywhere else keep to what was
written. -/
theorem covered_of_deliveries_eq {ss ss' : List (Section ι)}
    (halike : ss.map Section.hide = ss'.map Section.hide) {block block' : ℕ → UInt8}
    (hs : (driver pads ι).Serial block ss) (hs' : (driver pads ι).Serial block' ss') {n : ℕ}
    (hdiffer : ∀ k, n ≤ k → block k ≠ block' k)
    (hsame : ss.map Section.delivered = ss'.map Section.delivered) : ReadsCovered pads n ss := by
  induction ss generalizing ss' block block' n with
  | nil => trivial
  | cons s ss ih =>
      obtain ⟨s', ss', rfl, hhide, hrest⟩ := List.map_eq_cons_iff.1 halike.symm
      obtain ⟨hfirst, hlater⟩ := List.cons.inj hsame
      have heffect := effect_eq_of_hide pads hhide
      refine ⟨?_, ih hrest.symm hs.2 hs'.2 ?_ hlater⟩
      · by_contra hlong
        have hall := (delivered_eq_iff hhide.symm hs.1 hs'.1).1 hfirst
        exact hdiffer n (Nat.le_refl n) (hall n (Nat.lt_of_not_le hlong))
      · intro k hk
        obtain ⟨hn, hstretch⟩ := Nat.max_le.1 hk
        rw [heffect, effect_of_le hstretch, effect_of_le hstretch]
        exact hdiffer k hn

variable [DecidableEq ι]

/-- The reads of a schedule deliver the same whatever the block was at first exactly when each of
them keeps to the stretch that earlier writes have stored to. -/
theorem mutex_reveals_only_writes_iff (pads : Bool) (first : ℕ → UInt8)
    {schedule : List (Action ι)} {w : World ι}
    (h : Interleaving.exec (step pads) (initial first) schedule = some w) :
    (∀ second w', Interleaving.exec (step pads) (initial second) schedule = some w' →
      w'.deliveries = w.deliveries) ↔ ReadsCovered pads 0 w.sections := by
  have hserial := (inv_exec h).serial
  constructor
  · intro hsame
    obtain ⟨w', hexec, hhide⟩ := exec_other_block h fun k => first k + 1
    refine covered_of_deliveries_eq (congrArg World.sections hhide).symm hserial
      (inv_exec hexec).serial ?_ (hsame _ w' hexec).symm
    intro k _
    simp
  · intro hcovered second w' hexec
    obtain ⟨v, hv, hhide⟩ := exec_other_block h second
    rw [hexec, Option.some.injEq] at hv
    subst hv
    exact (deliveries_eq_of_covered (congrArg World.sections hhide).symm hserial
      (inv_exec hexec).serial (fun k hk => absurd hk (Nat.not_lt_zero k)) hcovered).symm

/-- Two bytes written and read again. -/
theorem mutex_reveals_written :
    ∃ w, Interleaving.exec (step true) (initial fun _ => 9) (writeTwo ++ .return () :: readTwo) =
        some w ∧ w.deliveries = [[], [7, 8]] ∧
      ∀ second w', Interleaving.exec (step true) (initial second)
        (writeTwo ++ .return () :: readTwo) = some w' → w'.deliveries = w.deliveries := by
  have hrun : (Interleaving.exec (step true) (initial fun _ => 9)
      (writeTwo ++ .return () :: readTwo)).any (fun w => w.deliveries = [[], [7, 8]] ∧
        w.sections.map (Section.stretch true) = [2, 0]) = true := by decide +kernel
  obtain ⟨w, hexec, hw⟩ := Interleaving.exists_of_exec_any _ _ _ hrun
  rw [decide_eq_true_eq] at hw
  refine ⟨w, hexec, hw.1, (mutex_reveals_only_writes_iff true _ hexec).2 ?_⟩
  obtain ⟨s, rest, hsections, hs, hrest⟩ := List.map_eq_cons_iff.1 hw.2
  obtain ⟨r, rfl, -⟩ := List.map_eq_singleton_iff.1 hrest
  have hdelivered := hw.1
  rw [World.deliveries, hsections, List.map_cons, List.map_singleton] at hdelivered
  obtain ⟨hfirst, hsecond⟩ : s.delivered = [] ∧ r.delivered = [7, 8] := by simpa using hdelivered
  rw [hsections, ReadsCovered, ReadsCovered, hfirst, hsecond, hs]
  exact ⟨by decide, by decide, trivial⟩

/-- A read from the fresh block delivers what the allocator left there. -/
theorem mutex_reveals_fresh_block :
    ∃ w w', Interleaving.exec (step true) (initial fun _ => 9) readTwo = some w ∧
      Interleaving.exec (step true) (initial fun _ => 8) readTwo = some w' ∧
      w.deliveries = [[9, 9]] ∧ w'.deliveries = [[8, 8]] := by
  have hrun : (Interleaving.exec (step true) (initial fun _ => 9) readTwo).any
      (fun w => w.deliveries = [[9, 9]]) = true := by decide +kernel
  have hrun' : (Interleaving.exec (step true) (initial fun _ => 8) readTwo).any
      (fun w => w.deliveries = [[8, 8]]) = true := by decide +kernel
  obtain ⟨w, hexec, hw⟩ := Interleaving.exists_of_exec_any _ _ _ hrun
  obtain ⟨w', hexec', hw'⟩ := Interleaving.exists_of_exec_any _ _ _ hrun'
  exact ⟨w, w', hexec, hexec', of_decide_eq_true hw, of_decide_eq_true hw'⟩

end MutexDriver
