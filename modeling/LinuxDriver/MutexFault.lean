import LinuxDriver.MutexContract

/-!
# Failed writes of the mutex driver

`my_write` copies from the user straight into the shared block. By the time the copy faults it
has replaced some of the block, and cleared the rest of its destination.
-/

open UserCopy

namespace MutexDriver

variable {ι : Type*}

theorem bound_le (count : UInt64) : bound count ≤ 1024 := by
  rw [bound_eq]
  exact Nat.min_le_right _ _

theorem resource_of_write {pads : Bool} {first : ℕ → UInt8} {v w : World ι} {s : Section ι}
    {count : UInt64} (hv : Inv pads first v) (hw : Inv pads first w)
    (hfree : v.memory.resourceMutex = none) (hfree' : w.memory.resourceMutex = none)
    (hsections : w.sections = v.sections ++ [s]) (hcall : s.call = .write count) :
    w.memory.resource = store (s.moved ++ padding pads s.call s.moved) v.memory.resource := by
  rw [hw.free hfree', hsections, SerialObject.replay_concat, ← hv.free hfree]
  simp only [driver, hcall, Call.put]

theorem resource_same_iff {first : ℕ → UInt8} {v w : World ι} {s : Section ι} {count : UInt64}
    (hv : Inv true first v) (hw : Inv true first w) (hfree : v.memory.resourceMutex = none)
    (hfree' : w.memory.resourceMutex = none) (hsections : w.sections = v.sections ++ [s])
    (hcall : s.call = .write count) :
    (∀ k < 1024, w.memory.resource k = v.memory.resource k) ↔
      load v.memory.resource (bound count) =
        s.moved ++ List.replicate (bound count - s.moved.length) 0 := by
  have hle : s.moved.length ≤ bound count := by
    obtain ⟨block, hlegal⟩ := legal_of_mem hw (s := s) (by simp [hsections])
    have hmoves := hlegal.1.1
    rwa [hcall] at hmoves
  have hbytes : s.moved ++ padding true s.call s.moved =
      s.moved ++ List.replicate (bound count - s.moved.length) 0 := by
    rw [padding, if_pos rfl, hcall]
    rfl
  have hlength : (s.moved ++ List.replicate (bound count - s.moved.length) (0 : UInt8)).length =
      bound count := by
    rw [List.length_append, List.length_replicate]
    omega
  rw [resource_of_write hv hw hfree hfree' hsections hcall, hbytes]
  refine (store_eq_self_iff (hlength.le.trans (bound_le count))).trans ?_
  rw [hlength]

theorem moved_of_next_read {pads : Bool} {first : ℕ → UInt8} {w x : World ι} {s : Section ι}
    {count : UInt64} (hw : Inv pads first w) (hx : Inv pads first x)
    (hfree : w.memory.resourceMutex = none) (hsections : x.sections = w.sections ++ [s])
    (hcall : s.call = .read count) (hok : 0 ≤ s.result) :
    s.moved = load w.memory.resource (bound count) := by
  have hserial := hx.serial
  rw [hsections] at hserial
  rw [hw.free hfree]
  exact moved_of_success hserial.legal hcall hok

variable [DecidableEq ι]

/-- From `v` to `w` the block has not changed, and a read that comes next after `w` delivers what
the block was in `v`. -/
structure ChangesNothing (v w : World ι) : Prop where
  block : ∀ k < 1024, w.memory.resource k = v.memory.resource k
  reads : ∀ schedule x s count, Interleaving.exec (step true) w schedule = some x →
    x.sections = w.sections ++ [s] → s.call = .read count → 0 ≤ s.result →
    s.moved = load v.memory.resource (bound count)

/-- A write that fails changes nothing exactly when the block starts with what the copy moved
before its fault and is clear from there to the end of the copy. -/
theorem mutex_failed_write_iff (first : ℕ → UInt8) {before during : List (Action ι)}
    {v w : World ι} {s : Section ι} {count : UInt64}
    (hv : Interleaving.exec (step true) (initial first) before = some v)
    (hw : Interleaving.exec (step true) v during = some w)
    (hfree : v.memory.resourceMutex = none) (hfree' : w.memory.resourceMutex = none)
    (hsections : w.sections = v.sections ++ [s]) (hcall : s.call = .write count)
    (_ : s.result = -EFAULT) :
    ChangesNothing v w ↔ load v.memory.resource (bound count) =
      s.moved ++ List.replicate (bound count - s.moved.length) 0 := by
  have hinv := inv_exec hv
  have hinv' := inv_exec (Interleaving.exec_trans hv hw)
  rw [← resource_same_iff hinv hinv' hfree hfree' hsections hcall]
  constructor
  · exact ChangesNothing.block
  · intro hall
    refine ⟨hall, ?_⟩
    intro schedule x r count' hx hnext hread hok
    have hinvx := inv_exec (Interleaving.exec_trans (Interleaving.exec_trans hv hw) hx)
    rw [moved_of_next_read hinv' hinvx hfree' hnext hread hok, load_congr]
    intro k hk
    exact hall k (hk.trans_le (bound_le count'))

def faultyWrite (bytes : List UInt8) : List (Action Unit) :=
  [.call () (.write 2), .step () ⟨false, 0⟩] ++ bytes.map (fun b => .step () ⟨false, b⟩) ++
    List.replicate (6 - bytes.length) (.step () ⟨true, 0⟩)

theorem mutex_failed_write_clear :
    ∃ (w : World Unit) (s : Section Unit),
      Interleaving.exec (step true) (initial fun _ => 0) (faultyWrite []) = some w ∧
      w.sections = [s] ∧ s.result = -EFAULT ∧ ChangesNothing (initial fun _ => 0) w := by
  have hrun : (Interleaving.exec (step true) (initial fun _ => 0) (faultyWrite [])).any
      (fun w => w.memory.resourceMutex = none ∧
        w.sections.map (fun s => (s.call, s.moved, s.result)) = [(.write 2, [], -EFAULT)]) =
      true := by decide +kernel
  obtain ⟨w, hexec, hw⟩ := Interleaving.exists_of_exec_any _ _ _ hrun
  rw [decide_eq_true_eq] at hw
  obtain ⟨s, hsections, hs⟩ := List.map_eq_singleton_iff.1 hw.2
  obtain ⟨hcall, hmoved, hresult⟩ : s.call = .write 2 ∧ s.moved = [] ∧ s.result = -EFAULT := by
    simpa using hs
  refine ⟨w, s, hexec, hsections, hresult, ?_⟩
  refine (mutex_failed_write_iff (fun _ => 0) (Interleaving.exec_nil _) hexec rfl hw.1 hsections
    hcall hresult).2 ?_
  rw [hmoved]
  decide

theorem mutex_failed_write_torn :
    ∃ (w : World Unit) (s : Section Unit),
      Interleaving.exec (step true) (initial fun _ => 9) (faultyWrite [7]) = some w ∧
      w.sections = [s] ∧ s.result = -EFAULT ∧ load w.memory.resource 3 = [7, 0, 9] ∧
      ¬ ChangesNothing (initial fun _ => 9) w := by
  have hrun : (Interleaving.exec (step true) (initial fun _ => 9) (faultyWrite [7])).any
      (fun w => load w.memory.resource 3 = [7, 0, 9] ∧
        w.sections.map Section.result = [-EFAULT]) = true := by decide +kernel
  obtain ⟨w, hexec, hw⟩ := Interleaving.exists_of_exec_any _ _ _ hrun
  rw [decide_eq_true_eq] at hw
  obtain ⟨s, hsections, hresult⟩ := List.map_eq_singleton_iff.1 hw.2
  refine ⟨w, s, hexec, hsections, hresult, hw.1, ?_⟩
  intro hnothing
  have hload : load w.memory.resource 3 = load (fun _ => 9) 3 :=
    load_congr.2 fun k hk => hnothing.block k (by omega)
  rw [hw.1] at hload
  exact absurd hload (by decide)

end MutexDriver
