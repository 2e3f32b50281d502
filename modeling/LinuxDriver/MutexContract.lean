import LinuxDriver.MutexSerial

/-!
# What the mutex driver returns

`my_read` returns 1024 and `my_write` its count, but both move at most `min(count, 1024)` bytes.
A caller goes by what is returned: it submits the rest of a write again, and takes that many
bytes from the buffer of a read.
-/

namespace MutexDriver

variable {ι : Type*}

def Call.count : Call → UInt64
  | .read count => count
  | .write count => count

/-- How many bytes a call reports to have moved; none when it reports an error. -/
def Section.reported (s : Section ι) : ℕ := s.result.toInt.toNat

/-- A negative error, or the number of bytes moved, which is at most the count. -/
def Section.Truthful (s : Section ι) : Prop :=
  s.result < 0 ∨ s.result.toInt = s.moved.length ∧ s.moved.length ≤ s.call.count.toNat

def Section.Faulted (s : Section ι) : Prop := s.moved.length < s.call.bound

/-- The counts for which what a complete copy returns is right. A count from
`0x8000000000000000` on is returned as a negative number. -/
def Call.Suits : Call → Prop
  | .read count => 1024 ≤ count
  | .write count => count ≤ 1024 ∨ 0x8000000000000000 ≤ count

def Section.Agrees (s : Section ι) : Prop := s.Faulted ∨ s.call.Suits

def remainder : List UInt8 → List (Section ι) → List UInt8
  | data, [] => data
  | data, s :: ss => remainder (data.drop s.reported) ss

/-- The sections are writes of one caller, each of all that it still has to submit. -/
def Submits : List UInt8 → List (Section ι) → Prop
  | _, [] => True
  | data, s :: ss => (∃ count, s.call = .write count ∧ count.toNat = data.length) ∧
      s.moved <+: data ∧ Submits (data.drop s.reported) ss

def received (ss : List (Section ι)) : List UInt8 :=
  ss.flatMap fun s => if s.result < 0 then [] else s.moved

structure KeepsContract (w : World ι) : Prop where
  calls : ∀ s ∈ w.sections, s.Truthful
  writers : ∀ data ss, ss.Sublist w.sections → Submits data ss →
    received ss ++ remainder data ss = data
  readers : ∀ s ∈ w.sections, ∀ count, s.call = .read count → s.reported ≤ s.moved.length

theorem bound_eq (count : UInt64) : bound count = min count.toNat 1024 := by
  unfold bound
  rw [UInt64.min_def]
  have hle : count ≤ 1024 ↔ count.toNat ≤ 1024 := UInt64.le_iff_toNat_le
  split_ifs with h
  · exact (Nat.min_eq_left (hle.1 h)).symm
  · exact (Nat.min_eq_right (Nat.le_of_not_le (mt hle.2 h))).symm

theorem toInt_toInt64 (count : UInt64) :
    count.toInt64.toInt = if count < 0x8000000000000000 then (count.toNat : ℤ)
      else count.toNat - 0x10000000000000000 := by
  have hcond : count.toInt64.toInt = if 2 * count.toNat < 0x10000000000000000 then
      (count.toNat : ℤ) else count.toNat - 0x10000000000000000 :=
    BitVec.toInt_eq_toNat_cond count.toBitVec
  have hlt : count < 0x8000000000000000 ↔ 2 * count.toNat < 0x10000000000000000 := by
    rw [UInt64.lt_iff_toNat_lt]
    simp
    omega
  rw [hcond]
  simp only [hlt]

theorem toInt64_neg_iff (count : UInt64) : count.toInt64 < 0 ↔ 0x8000000000000000 ≤ count := by
  have hlt := UInt64.toNat_lt count
  rw [Int64.lt_iff_toInt_lt, toInt_toInt64, ← UInt64.not_lt]
  split_ifs with h
  · simp [h]
  · simp [h]
    omega

theorem reported_of_neg {s : Section ι} (h : s.result < 0) : s.reported = 0 := by
  rw [Int64.lt_iff_toInt_lt] at h
  exact Int.toNat_of_nonpos (Int.le_of_lt h)

theorem reported_of_truthful {s : Section ι} (h : s.Truthful) (hok : ¬ s.result < 0) :
    s.reported = s.moved.length := by
  rw [Section.reported, (h.resolve_left hok).1, Int.toNat_natCast]

theorem truthful_of_faulted {pads : Bool} {block : ℕ → UInt8} {s : Section ι}
    (h : (driver pads ι).Legal block s) (hfault : s.Faulted) : s.Truthful := by
  left
  rw [h.2, if_neg (Nat.ne_of_lt hfault)]
  decide

theorem truthful_iff {pads : Bool} {block : ℕ → UInt8} {s : Section ι}
    (h : (driver pads ι).Legal block s) : s.Truthful ↔ s.Agrees := by
  by_cases hfault : s.Faulted
  · exact iff_of_true (truthful_of_faulted h hfault) (Or.inl hfault)
  · have hfull : s.moved.length = s.call.bound := Nat.le_antisymm h.1.1 (Nat.le_of_not_lt hfault)
    have hresult := h.2
    rw [if_pos hfull] at hresult
    rw [Section.Truthful, Section.Agrees, or_iff_right hfault, hresult, hfull]
    cases s.call with
    | read count =>
        have hpos : ¬ (1024 : Int64) < 0 := by decide
        have hle : 1024 ≤ count ↔ 1024 ≤ count.toNat := UInt64.le_iff_toNat_le
        rw [Call.success, or_iff_right hpos, Call.bound, bound_eq, Call.count, Call.Suits, hle]
        change (1024 : ℤ) = _ ∧ _ ↔ _
        omega
    | write count =>
        have hle : count ≤ 1024 ↔ count.toNat ≤ 1024 := UInt64.le_iff_toNat_le
        rw [Call.success, toInt64_neg_iff, toInt_toInt64, Call.bound, bound_eq, Call.count,
          Call.Suits, hle, ← UInt64.not_lt]
        split_ifs with hsmall
        · simp only [hsmall, not_true_eq_false, false_or, or_false]
          omega
        · simp [hsmall]

theorem received_remainder {ss : List (Section ι)} (h : ∀ s ∈ ss, s.Truthful)
    {data : List UInt8} (hsub : Submits data ss) : received ss ++ remainder data ss = data := by
  induction ss generalizing data with
  | nil => rfl
  | cons s ss ih =>
      obtain ⟨-, hmoved, hrest⟩ := hsub
      have hss := ih (fun s' hs' => h s' (List.mem_cons_of_mem _ hs')) hrest
      rw [received, List.flatMap_cons, List.append_assoc, remainder]
      rw [received] at hss
      rw [hss]
      split_ifs with hneg
      · rw [reported_of_neg hneg]
        rfl
      · rw [reported_of_truthful (h s List.mem_cons_self) hneg]
        obtain ⟨rest, rfl⟩ := hmoved
        rw [List.drop_left]

theorem legal_of_mem {pads : Bool} {first : ℕ → UInt8} {w : World ι} (h : Inv pads first w)
    {s : Section ι} (hs : s ∈ w.sections) : ∃ block, (driver pads ι).Legal block s := by
  obtain ⟨pre, post, hsections⟩ := List.append_of_mem hs
  have hserial := h.serial
  rw [hsections] at hserial
  exact ⟨_, hserial.legal⟩

variable [DecidableEq ι]

/-- The driver keeps the contract in the runs in which no copy succeeds with a count that
disagrees with what the code returns. -/
theorem mutex_contract_iff (pads : Bool) (first : ℕ → UInt8) {schedule : List (Action ι)}
    {w : World ι} (h : Interleaving.exec (step pads) (initial first) schedule = some w) :
    KeepsContract w ↔ ∀ s ∈ w.sections, s.Agrees := by
  have hinv := inv_exec h
  have htruthful : ∀ s ∈ w.sections, s.Truthful ↔ s.Agrees := by
    intro s hs
    obtain ⟨block, hlegal⟩ := legal_of_mem hinv hs
    exact truthful_iff hlegal
  constructor
  · exact fun hkeeps s hs => (htruthful s hs).1 (hkeeps.calls s hs)
  · intro hagrees
    have hcalls : ∀ s ∈ w.sections, s.Truthful := fun s hs => (htruthful s hs).2 (hagrees s hs)
    refine ⟨hcalls, ?_, ?_⟩
    · intro data ss hss
      exact received_remainder fun s hs => hcalls s (hss.subset hs)
    · intro s hs count _
      by_cases hneg : s.result < 0
      · rw [reported_of_neg hneg]
        exact Nat.zero_le _
      · exact Nat.le_of_eq (reported_of_truthful (hcalls s hs) hneg)

def writeTwo : List (Action Unit) :=
  [.call () (.write 2), .step () ⟨false, 0⟩, .step () ⟨false, 7⟩, .step () ⟨false, 8⟩,
    .step () ⟨false, 0⟩, .step () ⟨false, 0⟩, .step () ⟨false, 0⟩]

def readTwo : List (Action Unit) :=
  [.call () (.read 2), .step () ⟨false, 0⟩, .step () ⟨false, 0⟩, .step () ⟨false, 0⟩,
    .step () ⟨false, 0⟩, .step () ⟨false, 0⟩, .step () ⟨false, 0⟩]

theorem mutex_contract_kept :
    ∃ w, Interleaving.exec (step true) (initial fun _ => 9) writeTwo = some w ∧
      w.memory.resource 1 = 8 ∧ KeepsContract w := by
  have hrun : (Interleaving.exec (step true) (initial fun _ => 9) writeTwo).any (fun w =>
      w.memory.resource 1 = 8 ∧
        w.sections.map (fun s => (s.call, s.moved)) = [(.write 2, [7, 8])]) = true := by
    decide +kernel
  obtain ⟨w, hexec, hw⟩ := Interleaving.exists_of_exec_any _ _ _ hrun
  rw [decide_eq_true_eq] at hw
  refine ⟨w, hexec, hw.1, (mutex_contract_iff true _ hexec).2 ?_⟩
  intro s hs
  have hmem : (s.call, s.moved) ∈ w.sections.map fun s => (s.call, s.moved) :=
    List.mem_map_of_mem hs
  rw [hw.2, List.mem_singleton, Prod.mk.injEq] at hmem
  right
  rw [hmem.1]
  exact Or.inl (by decide)

theorem mutex_read_overreports :
    ∃ w, Interleaving.exec (step true) (initial fun _ => 9) readTwo = some w ∧
      w.sections.map (fun s => (s.moved, s.reported)) = [([9, 9], 1024)] ∧
      ¬ KeepsContract w := by
  have hrun : (Interleaving.exec (step true) (initial fun _ => 9) readTwo).any (fun w =>
      w.sections.map (fun s => (s.moved, s.reported)) = [([9, 9], 1024)] ∧
        ∀ s ∈ w.sections, s.call = .read 2) = true := by decide +kernel
  obtain ⟨w, hexec, hw⟩ := Interleaving.exists_of_exec_any _ _ _ hrun
  rw [decide_eq_true_eq] at hw
  refine ⟨w, hexec, hw.1, ?_⟩
  intro hkeeps
  obtain ⟨s, hs, hsection⟩ := List.mem_map.1 (hw.1 ▸ List.mem_singleton_self ([9, 9], 1024))
  have hle := hkeeps.readers s hs 2 (hw.2 s hs)
  obtain ⟨hmoved, hreported⟩ := Prod.mk.inj hsection
  rw [hmoved, hreported] at hle
  exact absurd hle (by decide)

end MutexDriver
