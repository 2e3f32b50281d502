import LinuxDriver.CString
import Mathlib.Data.List.Count

/-!
# The kernel's strsep

`strsep` cuts a string in place: it puts a NUL over the first delimiter and moves the caller's
pointer behind it, or to NULL when there is no delimiter left. Pointers are offsets into one
array, `none` is NULL.
-/

namespace CString

/-- The first byte of `ct` in the string at `s`. -/
def strpbrk (mem : List UInt8) (s : ℕ) (ct : List UInt8) : Option ℕ :=
  ((text (mem.drop s)).findIdx? fun c => c ∈ ct).map fun i => s + i

/-- What `strsep` leaves: the array, the pointer of its caller and its result. -/
structure Cut where
  mem : List UInt8
  stringp : Option ℕ
  token : Option ℕ
  deriving DecidableEq, Repr

def strsep (mem : List UInt8) (s : Option ℕ) (ct : List UInt8) : Cut :=
  match s with
  | none => ⟨mem, none, none⟩
  | some sbegin =>
      match strpbrk mem sbegin ct with
      | none => ⟨mem, none, some sbegin⟩
      | some stop => ⟨mem.set stop 0, some (stop + 1), some sbegin⟩

variable {done s rest ct : List UInt8}

/-- The string that lies behind a first part of the array. -/
theorem text_drop_append (hs : (0 : UInt8) ∉ s) :
    text ((done ++ (s ++ 0 :: rest)).drop done.length) = s := by
  rw [List.drop_left]
  exact text_append_zero hs rest

theorem strsep_of_forall (hs : (0 : UInt8) ∉ s) (hct : ∀ c ∈ s, c ∉ ct) :
    strsep (done ++ (s ++ 0 :: rest)) (some done.length) ct =
      ⟨done ++ (s ++ 0 :: rest), none, some done.length⟩ := by
  have hnone : strpbrk (done ++ (s ++ 0 :: rest)) done.length ct = none := by
    rw [strpbrk, text_drop_append hs, Option.map_eq_none_iff, List.findIdx?_eq_none_iff]
    intro c hc
    simpa using hct c hc
  rw [strsep, hnone]

theorem strsep_of_delimiter {word : List UInt8} {d : UInt8} (hs : (0 : UInt8) ∉ word ++ d :: s)
    (hword : ∀ c ∈ word, c ∉ ct) (hd : d ∈ ct) :
    strsep (done ++ (word ++ d :: s ++ 0 :: rest)) (some done.length) ct =
      ⟨done ++ (word ++ 0 :: (s ++ 0 :: rest)), some (done ++ (word ++ [0])).length,
        some done.length⟩ := by
  have hindex : (word ++ d :: s).findIdx? (fun c => c ∈ ct) = some word.length := by
    have hnone : word.findIdx? (fun c => c ∈ ct) = none := by
      rw [List.findIdx?_eq_none_iff]
      intro c hc
      simpa using hword c hc
    rw [List.findIdx?_append, hnone, List.findIdx?_cons, if_pos (decide_eq_true hd)]
    simp
  have hstop : strpbrk (done ++ (word ++ d :: s ++ 0 :: rest)) done.length ct =
      some (done.length + word.length) := by
    rw [strpbrk, text_drop_append hs, hindex, Option.map_some]
  have hset : (done ++ (word ++ d :: s ++ 0 :: rest)).set (done.length + word.length) 0 =
      done ++ (word ++ 0 :: (s ++ 0 :: rest)) := by
    rw [List.set_append_right _ _ (Nat.le_add_right _ _), Nat.add_sub_cancel_left,
      List.append_assoc, List.set_append_right _ _ (Nat.le_refl _), Nat.sub_self]
    rfl
  have hlength : (done ++ (word ++ [0])).length = done.length + word.length + 1 := by
    simp [Nat.add_assoc]
  rw [strsep, hstop, hlength]
  simp only [hset]

/-! ## Pieces between delimiters -/

section

variable {α : Type*} [BEq α] {x : α}

theorem length_splitOn (s : List α) : (s.splitOn x).length = s.count x + 1 := by
  induction s with
  | nil => rfl
  | cons c s ih =>
      rw [List.splitOn_cons_eq_if_modifyHead, List.count_cons]
      split
      · rw [List.length_cons, ih]
      · rw [List.length_modifyHead, ih]

theorem notMem_of_mem_splitOn [LawfulBEq α] {s piece : List α} (h : piece ∈ s.splitOn x) :
    x ∉ piece := by
  induction s generalizing piece with
  | nil => simp_all
  | cons c s ih =>
      rw [List.splitOn_cons_eq_if_modifyHead] at h
      split at h
      · rcases List.mem_cons.1 h with rfl | h
        · exact List.not_mem_nil
        · exact ih h
      · next hc =>
          obtain ⟨first, others, hs⟩ := List.exists_cons_of_ne_nil (List.splitOn_ne_nil x s)
          rw [hs] at h ih
          rcases List.mem_cons.1 h with rfl | h
          · rw [List.mem_cons]
            rintro (rfl | hx)
            · exact hc BEq.rfl
            · exact ih List.mem_cons_self hx
          · exact ih (List.mem_cons_of_mem _ h)

end

end CString
