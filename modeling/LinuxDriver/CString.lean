import Mathlib.Data.List.Basic
import Mathlib.Data.List.TakeWhile
import Mathlib.Tactic.SplitIfs

/-!
# C strings in byte arrays

A C string is what precedes the first NUL byte in memory. The functions below follow the
kernel's library on byte lists; memory past the end of a list reads as NUL.
-/

namespace CString

def bytes (s : String) : List UInt8 := s.toList.map fun c => UInt8.ofNat c.toNat

/-- The C string at the start of `mem`. -/
def text (mem : List UInt8) : List UInt8 := mem.takeWhile fun c => c ≠ 0

def strncmp : List UInt8 → List UInt8 → ℕ → ℤ
  | _, _, 0 => 0
  | cs, ct, n + 1 =>
      let c1 := cs.headD 0
      let c2 := ct.headD 0
      if c1 ≠ c2 then (if c1 < c2 then -1 else 1)
      else if c1 = 0 then 0
      else strncmp cs.tail ct.tail n

/-- `snprintf(dst, size, "%s", src)`: bytes of `dst` after the new terminator stay. -/
def snprintfS (dst : List UInt8) (size : ℕ) (src : List UInt8) : List UInt8 :=
  let out := (text src).take (size - 1)
  out ++ 0 :: dst.drop (out.length + 1)

theorem zero_notMem_text (mem : List UInt8) : (0 : UInt8) ∉ text mem := fun h => by
  simpa using List.mem_takeWhile_imp h

/-- A prefix without separators is a prefix of the first word. -/
theorem prefix_takeWhile_iff {p : UInt8 → Bool} {l t : List UInt8} (hl : ∀ c ∈ l, p c) :
    l <+: t.takeWhile p ↔ l <+: t := by
  constructor
  · exact fun h => h.trans (List.takeWhile_prefix p)
  · rintro ⟨r, rfl⟩
    rw [List.takeWhile_append_of_pos hl]
    exact List.prefix_append l _

/-- A string ends at its first NUL. -/
theorem text_append_nul (s rest : List UInt8) : text (s ++ 0 :: rest) = text s := by
  induction s with
  | nil => rfl
  | cons c cs ih =>
      by_cases hc : c = 0
      · simp [text, hc]
      · simp only [text, List.cons_append] at ih ⊢
        rw [List.takeWhile_cons_of_pos (by simpa using hc), ih,
          List.takeWhile_cons_of_pos (by simpa using hc)]

theorem text_eq_self {s : List UInt8} (hs : (0 : UInt8) ∉ s) : text s = s := by
  rw [text, List.takeWhile_eq_self_iff]
  intro c hc
  have hne : c ≠ 0 := by
    rintro rfl
    exact hs hc
  simpa using hne

theorem text_append_zero {s : List UInt8} (hs : (0 : UInt8) ∉ s) (rest : List UInt8) :
    text (s ++ 0 :: rest) = s :=
  (text_append_nul s rest).trans (text_eq_self hs)

theorem zero_notMem_take_text (mem : List UInt8) (n : ℕ) : (0 : UInt8) ∉ (text mem).take n :=
  fun h => zero_notMem_text mem (List.mem_of_mem_take h)

theorem length_out_lt {size : ℕ} (hsize : 0 < size) (src : List UInt8) :
    ((text src).take (size - 1)).length < size := by
  have h := List.length_take_le (size - 1) (text src)
  omega

theorem length_snprintfS {dst : List UInt8} {size : ℕ} (hsize : 0 < size ∧ size ≤ dst.length)
    (src : List UInt8) : (snprintfS dst size src).length = dst.length := by
  have h := length_out_lt hsize.1 src
  simp only [snprintfS, List.length_append, List.length_cons, List.length_drop]
  omega

theorem getLast?_snprintfS {dst : List UInt8} (hlast : dst.getLast? = some 0) (size : ℕ)
    (src : List UInt8) : (snprintfS dst size src).getLast? = some 0 := by
  simp only [snprintfS, List.getLast?_append, List.getLast?_cons, List.getLast?_drop, hlast]
  split_ifs <;> rfl

/-- Into an array of NULs: the new text with NULs after it. -/
theorem snprintfS_replicate {src : List UInt8} {size m : ℕ}
    (hm : ((text src).take (size - 1)).length < m) :
    snprintfS (List.replicate m 0) size src = (text src).take (size - 1) ++
      List.replicate (m - ((text src).take (size - 1)).length) 0 := by
  simp only [snprintfS, List.drop_replicate]
  congr 1
  rw [← List.replicate_succ]
  congr 1
  omega

@[simp] theorem text_snprintfS (dst : List UInt8) (size : ℕ) (src : List UInt8) :
    text (snprintfS dst size src) = (text src).take (size - 1) :=
  text_append_zero (zero_notMem_take_text src _) _

/-- Past the first bytes of the new text there is its rest, past its terminator the old
content of the array. -/
theorem text_drop_snprintfS (dst : List UInt8) (size : ℕ) (src : List UInt8) (k : ℕ) :
    text ((snprintfS dst size src).drop (k + 1)) =
      if k < ((text src).take (size - 1)).length then ((text src).take (size - 1)).drop (k + 1)
      else text (dst.drop (k + 1)) := by
  have hz := zero_notMem_take_text src (size - 1)
  simp only [snprintfS]
  split_ifs with hk
  · rw [List.drop_append_of_le_length hk]
    exact text_append_zero (fun h => hz (List.mem_of_mem_drop h)) _
  · rw [List.drop_append, List.drop_eq_nil_of_le (by omega), List.nil_append]
    obtain ⟨d, hd⟩ : ∃ d, k + 1 - ((text src).take (size - 1)).length = d + 1 :=
      ⟨k - ((text src).take (size - 1)).length, by omega⟩
    rw [hd, List.drop_succ_cons, List.drop_drop]
    congr 2
    omega

private theorem order_ne_zero (p : Prop) [Decidable p] : (if p then (-1 : ℤ) else 1) ≠ 0 := by
  split <;> decide

/-- Comparing as many bytes as a name has asks whether the string starts with the name. -/
theorem strncmp_eq_zero_iff (cs name : List UInt8) (hname : (0 : UInt8) ∉ name) :
    strncmp cs name name.length = 0 ↔ name <+: text cs := by
  induction name generalizing cs with
  | nil => simp [strncmp]
  | cons d ds ih =>
      have hd : d ≠ 0 := fun h => hname (h ▸ List.mem_cons_self)
      have hds : (0 : UInt8) ∉ ds := fun h => hname (List.mem_cons_of_mem _ h)
      cases cs with
      | nil =>
          have hne : strncmp [] (d :: ds) (d :: ds).length ≠ 0 := by
            simpa [strncmp, hd.symm] using order_ne_zero (0 < d)
          exact iff_of_false hne (by simp [text])
      | cons c cs =>
          by_cases hc : c = d
          · subst c
            have heq : strncmp (d :: cs) (d :: ds) (d :: ds).length =
                strncmp cs ds ds.length := by
              simp [strncmp, hd]
            have htext : text (d :: cs) = d :: text cs :=
              List.takeWhile_cons_of_pos (by simpa using hd)
            rw [heq, ih cs hds, htext, List.cons_prefix_cons]
            exact (and_iff_right rfl).symm
          · have hne : strncmp (c :: cs) (d :: ds) (d :: ds).length ≠ 0 := by
              simpa [strncmp, hc] using order_ne_zero (c < d)
            have hno : ¬ d :: ds <+: text (c :: cs) := by
              rintro ⟨t, ht⟩
              by_cases hz : c = 0
              · simp [text, hz] at ht
              · rw [text, List.takeWhile_cons_of_pos (by simpa using hz)] at ht
                exact hc (List.cons.inj ht).1.symm
            exact iff_of_false hne hno

end CString
