import LinuxDriver.CString
import Mathlib.Data.List.Range
import Mathlib.Data.Nat.Notation

/-!
# Reading a string inside an array

A function that is given a string reads its bytes one after another and stops behind the NUL. It
stays inside the array exactly when the array has a NUL from the start of the string on.
-/

namespace CString

/-- The string at `p` has its NUL inside the array. -/
def Terminated (mem : List UInt8) (p : ℕ) : Prop := ∃ nul, p ≤ nul ∧ mem[nul]? = some 0

/-- The indices at which the string at `p` is read. -/
def stringReads (mem : List UInt8) (p : ℕ) : List ℕ :=
  List.range' p ((text (mem.drop p)).length + 1)

variable {mem : List UInt8} {p : ℕ}

theorem terminated_iff : Terminated mem p ↔ (0 : UInt8) ∈ mem.drop p := by
  rw [List.mem_iff_getElem?]
  constructor
  · rintro ⟨nul, hle, hnul⟩
    refine ⟨nul - p, ?_⟩
    rw [List.getElem?_drop, Nat.add_sub_cancel' hle]
    exact hnul
  · rintro ⟨k, hk⟩
    rw [List.getElem?_drop] at hk
    exact ⟨p + k, Nat.le_add_right p k, hk⟩

theorem Terminated.split (h : Terminated mem p) : ∃ before rest, before.length = p ∧
    mem = before ++ (text (mem.drop p) ++ 0 :: rest) := by
  have hdrop := terminated_iff.1 h
  have hp : p < mem.length := by
    obtain ⟨nul, hle, hnul⟩ := h
    obtain ⟨hlt, -⟩ := List.getElem?_eq_some_iff.1 hnul
    omega
  have hne : (mem.drop p).dropWhile (fun c => c ≠ 0) ≠ [] := by
    intro hnil
    rw [List.dropWhile_eq_nil_iff] at hnil
    simpa using hnil 0 hdrop
  obtain ⟨c, rest, hcons⟩ := List.exists_cons_of_ne_nil hne
  have hc : c = 0 := by
    have hhead := List.head?_dropWhile_not (fun c : UInt8 => decide (c ≠ 0)) (mem.drop p)
    rw [hcons] at hhead
    simpa using hhead
  refine ⟨mem.take p, rest, ?_, ?_⟩
  · rw [List.length_take]
    omega
  · rw [← hc, ← hcons, text, List.takeWhile_append_dropWhile, List.take_append_drop]

theorem terminated_of_getLast? (h : mem.getLast? = some 0) (hp : p < mem.length) :
    Terminated mem p := by
  refine ⟨mem.length - 1, by omega, ?_⟩
  rw [← List.getLast?_eq_getElem?]
  exact h

theorem stringReads_inside_iff :
    (∀ i ∈ stringReads mem p, i < mem.length) ↔ Terminated mem p := by
  constructor
  · intro h
    rw [terminated_iff]
    by_contra hzero
    have hlast := h (p + (text (mem.drop p)).length) (List.mem_range'_1.2 (by omega))
    rw [text_eq_self hzero, List.length_drop] at hlast
    omega
  · intro h i hi
    obtain ⟨before, rest, hbefore, hmem⟩ := h.split
    have hlen := congrArg List.length hmem
    rw [List.length_append, List.length_append, List.length_cons, hbefore] at hlen
    have hlt := (List.mem_range'_1.1 hi).2
    omega

end CString
