import LinuxDriver.Sys2Interface

/-!
# Clearing the statistics of an interface

`clearinterface_in` zeroes as many bytes from `dev->stats` on as `struct rtnl_link_stats64` has,
which is more than there are in `dev->stats`. The counters of a driver with a statistics
callback are elsewhere.
-/

open CString UserCopy

namespace Sys2

def StatsLine.value : StatsLine → Option UInt64
  | .counter _ value => some value
  | _ => none

structure OnlyStats (m : Machine) (d : ℕ) (sys sys' : NetSystem) : Prop where
  system : sys'.toSystem = sys.toSystem
  others : ∀ e, e ≠ d → sys'.interface e = sys.interface e
  devAddr : (sys'.interface d).devAddr = (sys.interface d).devAddr
  getStats : (sys'.interface d).getStats = (sys.interface d).getStats
  beyond : ∀ k, m.sizeofStats ≤ k → (sys'.interface d).mem k = (sys.interface d).mem k

/-- A show right after the clear prints zeros, and the clear changes only the statistics. -/
structure Clears (m : Machine) (param : List UInt8) (d : ℕ) (sys : NetSystem) : Prop where
  zero : (showinterfaceIn m param (clearinterfaceIn m param sys).sys).printed.filterMap
    StatsLine.value = Counter.all.map fun _ => 0
  frame : OnlyStats m d sys (clearinterfaceIn m param sys).sys

/-- No callback reports other counters, and what lies behind the statistics is zero already. -/
structure Clearable (m : Machine) (dev : Interface) : Prop where
  callback : ∀ report, dev.getStats = some report →
    ∀ c, report (dev.clear m.sizeofStats64).mem c = 0
  behind : ∀ k, m.sizeofStats ≤ k → k < m.sizeofStats64 → dev.mem k = 0

theorem mem_clear_of_lt {n k : ℕ} (dev : Interface) (h : k < n) : (dev.clear n).mem k = 0 := by
  have hlen : k < (List.replicate n (0 : UInt8)).length := by rwa [List.length_replicate]
  exact (store_of_lt hlen dev.mem).trans (List.getElem_replicate hlen)

theorem mem_clear_of_le {n k : ℕ} (dev : Interface) (h : n ≤ k) :
    (dev.clear n).mem k = dev.mem k := by
  apply store_of_le
  rwa [List.length_replicate]

theorem mem_counterAll (c : Counter) : c ∈ Counter.all := by
  cases c <;> decide

theorem index_lt (c : Counter) : c.index < 8 := by
  cases c <;> decide

theorem foldr_bytes_zero {f : ℕ → UInt8} {l : List ℕ} (h : ∀ j ∈ l, f j = 0) :
    l.foldr (fun j n => (f j).toNat + 256 * n) 0 = 0 := by
  induction l with
  | nil => rfl
  | cons j l ih =>
      rw [List.foldr_cons, ih fun k hk => h k (List.mem_cons_of_mem _ hk), h j List.mem_cons_self]
      rfl

theorem loadWord_clear {m : Machine} (dev : Interface) (c : Counter) :
    loadWord m.wordSize (dev.clear m.sizeofStats64).mem c.index = 0 := by
  have hzero : ∀ j ∈ List.range m.wordSize,
      (dev.clear m.sizeofStats64).mem (m.wordSize * c.index + j) = 0 := by
    intro j hj
    have hj' := List.mem_range.1 hj
    have hindex := index_lt c
    have hwords := m.words
    apply mem_clear_of_lt
    unfold Machine.sizeofStats64
    rcases m.word with h | h <;> rw [h] at hj' ⊢ <;> omega
  rw [loadWord, foldr_bytes_zero hzero]
  rfl

theorem devGetStats_clear_eq_zero_iff {m : Machine} {dev : Interface} :
    (∀ c, devGetStats m (dev.clear m.sizeofStats64) c = 0) ↔
      ∀ report, dev.getStats = some report →
        ∀ c, report (dev.clear m.sizeofStats64).mem c = 0 := by
  have hcallback : (dev.clear m.sizeofStats64).getStats = dev.getStats := rfl
  unfold devGetStats
  rw [hcallback]
  cases dev.getStats with
  | none =>
      apply iff_of_true
      · exact loadWord_clear dev
      · simp
  | some report => simp

theorem beyond_clear_iff {m : Machine} {dev : Interface} :
    (∀ k, m.sizeofStats ≤ k → (dev.clear m.sizeofStats64).mem k = dev.mem k) ↔
      ∀ k, m.sizeofStats ≤ k → k < m.sizeofStats64 → dev.mem k = 0 := by
  constructor
  · intro hsame k hk hlt
    rw [← hsame k hk, mem_clear_of_lt dev hlt]
  · intro hzero k hk
    rcases Nat.lt_or_ge k m.sizeofStats64 with hlt | hge
    · rw [mem_clear_of_lt dev hlt, hzero k hk hlt]
    · exact mem_clear_of_le dev hge

theorem printed_after_clear {m : Machine} {param : List UInt8} {sys : NetSystem} {d : ℕ}
    (h : interfaceDevice sys.toSystem param = some d) :
    (showinterfaceIn m param (clearinterfaceIn m param sys).sys).printed.filterMap StatsLine.value =
      Counter.all.map (devGetStats m ((sys.interface d).clear m.sizeofStats64)) := by
  have hcleared : interfaceDevice (clearinterfaceIn m param sys).sys.toSystem param = some d := by
    rw [clearinterfaceIn_of_device h]
    exact h
  rw [showinterfaceIn_of_device hcleared, clearinterfaceIn_of_device h]
  simp only [Function.update_self]
  rfl

/-- Clearing an interface clears what showing it prints, and nothing else, exactly for the
interfaces that are clearable. -/
theorem sys2_clear_clears_iff (m : Machine) {param : List UInt8} {sys : NetSystem} {d : ℕ}
    (h : interfaceDevice sys.toSystem param = some d) :
    Clears m param d sys ↔ Clearable m (sys.interface d) := by
  have hzero : (showinterfaceIn m param (clearinterfaceIn m param sys).sys).printed.filterMap
      StatsLine.value = Counter.all.map (fun _ => 0) ↔
      ∀ c, devGetStats m ((sys.interface d).clear m.sizeofStats64) c = 0 := by
    rw [printed_after_clear h, List.map_inj_left]
    exact ⟨fun hall c => hall c (mem_counterAll c), fun hall c _ => hall c⟩
  have hinterface : (clearinterfaceIn m param sys).sys.interface d =
      (sys.interface d).clear m.sizeofStats64 := by
    rw [clearinterfaceIn_of_device h]
    exact Function.update_self ..
  constructor
  · intro hclears
    have hbeyond := hclears.frame.beyond
    rw [hinterface] at hbeyond
    exact ⟨devGetStats_clear_eq_zero_iff.1 (hzero.1 hclears.zero), beyond_clear_iff.1 hbeyond⟩
  · intro hclearable
    refine ⟨hzero.2 (devGetStats_clear_eq_zero_iff.2 hclearable.callback), ?_⟩
    refine ⟨?_, ?_, ?_, ?_, ?_⟩
    · rw [clearinterfaceIn_of_device h]
    · intro e he
      rw [clearinterfaceIn_of_device h]
      exact Function.update_of_ne he ..
    · rw [hinterface]
      rfl
    · rw [hinterface]
      rfl
    · rw [hinterface]
      exact beyond_clear_iff.2 hclearable.behind

theorem sys2_clear_clears_eth0 :
    Clears amd64 (bytes "eth0\n") 0
      (oneInterface (bytes "eth0") ⟨[], fun k => if k < 184 then 1 else 0, none⟩) := by
  have hdev : interfaceDevice (oneInterface (bytes "eth0")
      ⟨[], fun k => if k < 184 then 1 else 0, none⟩).toSystem (bytes "eth0\n") = some 0 := by decide
  refine (sys2_clear_clears_iff amd64 hdev).2 ⟨?_, ?_⟩
  · intro report hreport
    cases hreport
  · intro k hk _
    exact if_neg (Nat.not_lt.2 hk)

/-- The loopback device counts for itself, in memory that the clear does not reach. -/
def loopback : NetSystem := oneInterface (bytes "lo") ⟨[], fun _ => 1, some fun _ _ => 7⟩

theorem sys2_clear_leaves_lo :
    (showinterfaceIn amd64 (bytes "lo")
          (clearinterfaceIn amd64 (bytes "lo") loopback).sys).printed =
        (showinterfaceIn amd64 (bytes "lo") loopback).printed ∧
      ((clearinterfaceIn amd64 (bytes "lo") loopback).sys.interface 0).mem 184 = 0 ∧
      ¬ Clears amd64 (bytes "lo") 0 loopback := by
  have hdev : interfaceDevice loopback.toSystem (bytes "lo") = some 0 := by decide
  have hsame : (showinterfaceIn amd64 (bytes "lo")
      (clearinterfaceIn amd64 (bytes "lo") loopback).sys).printed =
        (showinterfaceIn amd64 (bytes "lo") loopback).printed := by
    decide +kernel
  have hbehind : ((clearinterfaceIn amd64 (bytes "lo") loopback).sys.interface 0).mem 184 = 0 := by
    rw [clearinterfaceIn_of_device hdev]
    simp only [Function.update_self]
    exact mem_clear_of_lt _ (by decide)
  refine ⟨hsame, hbehind, ?_⟩
  intro hclears
  have hbeyond := hclears.frame.beyond 184 (by decide)
  rw [hbehind] at hbeyond
  exact absurd hbeyond (by decide)

end Sys2
