import LinuxDriver.StringReads
import LinuxDriver.Sys2InterfaceName

/-!
# Trimming a string in place

`trim_trailing_whitespace` walks backwards from the last byte of a string and overwrites white
space. The walk ends at the first byte of the string, which is not looked at.
-/

open CString

namespace Sys2

namespace InPlace

/-- A string at an index of an array. -/
structure Str where
  mem : List UInt8
  str : ℕ
  terminated : Terminated mem str

def Str.text (s : Str) : List UInt8 := CString.text (s.mem.drop s.str)

/-- The array, the pointer `end` as an index, which is -1 for an empty string at the start of the
array, and the indices read and written. -/
structure Trim where
  mem : List UInt8
  endPtr : ℤ
  reads : List ℤ
  writes : List ℤ
  deriving DecidableEq

namespace Trim

def deref (t : Trim) : UInt8 := t.mem.getD t.endPtr.toNat 0

def look (t : Trim) : Trim := { t with reads := t.reads ++ [t.endPtr] }

/-- `*end = '\0'; end--;` -/
def clear (t : Trim) : Trim :=
  { t with
    mem := t.mem.set t.endPtr.toNat 0
    endPtr := t.endPtr - 1
    writes := t.writes ++ [t.endPtr] }

end Trim

/-- The loop; `none` when the fuel runs out. -/
def trimWhile (str : ℕ) : ℕ → Trim → Option Trim
  | 0, _ => none
  | fuel + 1, t =>
      if t.endPtr > str then
        if isspace t.deref then trimWhile str fuel t.look.clear else some t.look
      else some t

def trimTrailingWhitespace (fuel : ℕ) (mem : List UInt8) (str : ℕ) : Option Trim :=
  let strlen := (text (mem.drop str)).length
  trimWhile str fuel ⟨mem, str + strlen - 1, (stringReads mem str).map Nat.cast, []⟩

def EndsVisible (s : List UInt8) : Prop := ∀ c, s.getLast? = some c → isspace c = false

/-- The longest part from the start on that has no white space at its end. -/
structure LongestVisible (s r : List UInt8) : Prop where
  part : r <+: s
  visible : EndsVisible r
  longest : ∀ q, q <+: s → EndsVisible q → q.length ≤ r.length

/-- What is read and written is in the string; its NUL may be read. -/
structure StaysInside (s : Str) (t : Trim) : Prop where
  reads : ∀ i ∈ t.reads, (s.str : ℤ) ≤ i ∧ i ≤ s.str + s.text.length
  writes : ∀ i ∈ t.writes, (s.str : ℤ) ≤ i ∧ i < s.str + s.text.length

/-- The loop ends and has done what it is for: a second call changes nothing. -/
def TrimsTrailing (s : Str) : Prop :=
  ∃ t again, (∀ fuel, s.text.length < fuel →
      trimTrailingWhitespace fuel s.mem s.str = some t ∧
      trimTrailingWhitespace fuel t.mem s.str = some again) ∧
    LongestVisible s.text (text (t.mem.drop s.str)) ∧ StaysInside s t ∧ again.mem = t.mem

/-! ## The text -/

theorem trimLoop_cons_of_ne_nil (c : UInt8) {rest : List UInt8} (h : rest ≠ []) :
    trimLoop (c :: rest) = if isspace c then trimLoop rest else c :: rest := by
  obtain ⟨d, rest, rfl⟩ := List.exists_cons_of_ne_nil h
  rfl

theorem trimTrailingWhitespace_concat {s : List UInt8} (h : s ≠ []) (c : UInt8) :
    Sys2.trimTrailingWhitespace (s ++ [c]) =
      if isspace c then Sys2.trimTrailingWhitespace s else s ++ [c] := by
  have hrev : s.reverse ≠ [] := mt List.reverse_eq_nil_iff.1 h
  rw [Sys2.trimTrailingWhitespace, List.reverse_append, List.reverse_singleton,
    List.singleton_append, trimLoop_cons_of_ne_nil c hrev]
  split_ifs with hc
  · rfl
  · rw [List.reverse_cons, List.reverse_reverse]

theorem trimTrailingWhitespace_idem (s : List UInt8) :
    Sys2.trimTrailingWhitespace (Sys2.trimTrailingWhitespace s) =
      Sys2.trimTrailingWhitespace s := by
  induction s using List.reverseRecOn with
  | nil => rfl
  | append_singleton s c ih =>
      by_cases hs : s = []
      · subst s
        rfl
      · rw [trimTrailingWhitespace_concat hs]
        split_ifs with hc
        · exact ih
        · rw [trimTrailingWhitespace_concat hs, if_neg hc]

theorem trimTrailingWhitespace_eq_rdropWhile_iff (s : List UInt8) :
    Sys2.trimTrailingWhitespace s = s.rdropWhile isspace ↔
      s = [] ∨ ∃ c ∈ s, isspace c = false := by
  induction s using List.reverseRecOn with
  | nil => exact iff_of_true rfl (Or.inl rfl)
  | append_singleton s c ih =>
      cases hc : isspace c with
      | false =>
          have htrim : Sys2.trimTrailingWhitespace (s ++ [c]) = s ++ [c] := by
            by_cases hs : s = []
            · subst s
              rfl
            · rw [trimTrailingWhitespace_concat hs, hc]
              rfl
          rw [htrim, List.rdropWhile_concat_neg _ _ _ (by simp [hc])]
          exact iff_of_true rfl (Or.inr ⟨c, by simp, hc⟩)
      | true =>
          rw [List.rdropWhile_concat_pos _ _ _ hc]
          by_cases hs : s = []
          · subst s
            refine iff_of_false (List.cons_ne_nil c []) ?_
            simp [hc]
          · rw [trimTrailingWhitespace_concat hs, if_pos hc, ih]
            simp [hs, hc]

theorem longestVisible_rdropWhile (s : List UInt8) :
    LongestVisible s (s.rdropWhile isspace) := by
  induction s using List.reverseRecOn with
  | nil =>
      refine ⟨List.prefix_refl _, by simp [EndsVisible], ?_⟩
      intro q hq _
      exact hq.length_le
  | append_singleton s c ih =>
      cases hc : isspace c with
      | false =>
          rw [List.rdropWhile_concat_neg _ _ _ (by simp [hc])]
          refine ⟨List.prefix_refl _, by simp [EndsVisible, hc], ?_⟩
          intro q hq _
          exact hq.length_le
      | true =>
          rw [List.rdropWhile_concat_pos _ _ _ hc]
          refine ⟨ih.part.trans (List.prefix_append s [c]), ih.visible, ?_⟩
          intro q hq hvisible
          rcases List.prefix_concat_iff.1 hq with rfl | hq
          · have hlast := hvisible c (by simp)
            rw [hc] at hlast
            contradiction
          · exact ih.longest q hq hvisible

theorem longestVisible_iff {s r : List UInt8} :
    LongestVisible s r ↔ r = s.rdropWhile isspace := by
  have hbest := longestVisible_rdropWhile s
  constructor
  · intro h
    have hle := hbest.longest r h.part h.visible
    have hge := h.longest _ hbest.part hbest.visible
    have hpre := List.prefix_of_prefix_length_le h.part hbest.part hle
    exact hpre.eq_of_length (Nat.le_antisymm hle hge)
  · rintro rfl
    exact hbest

/-! ## The array -/

section

variable {str fuel : ℕ} {t : Trim}

theorem trimWhile_stop (h : t.endPtr ≤ str) : trimWhile str (fuel + 1) t = some t :=
  if_neg (by omega)

theorem trimWhile_visible (h : str < t.endPtr) (hc : isspace t.deref = false) :
    trimWhile str (fuel + 1) t = some t.look := by
  rw [trimWhile, if_pos h, hc]
  rfl

theorem trimWhile_clear (h : str < t.endPtr) (hc : isspace t.deref = true) :
    trimWhile str (fuel + 1) t = trimWhile str fuel t.look.clear := by
  rw [trimWhile, if_pos h, if_pos hc]

end

/-- `end` at the last byte of `s`, or in front of it if there is none. -/
def atEnd (before s rest : List UInt8) (reads writes : List ℤ) : Trim :=
  ⟨before ++ (s ++ rest), before.length + s.length - 1, reads, writes⟩

section

variable (before s rest : List UInt8) (c : UInt8) (reads writes : List ℤ)

theorem endPtr_concat :
    (atEnd before (s ++ [c]) rest reads writes).endPtr = ((before ++ s).length : ℤ) := by
  simp only [atEnd, List.length_append, List.length_singleton]
  omega

theorem toNat_endPtr_concat :
    (atEnd before (s ++ [c]) rest reads writes).endPtr.toNat = (before ++ s).length := by
  rw [endPtr_concat, Int.toNat_natCast]

theorem mem_concat :
    (atEnd before (s ++ [c]) rest reads writes).mem = before ++ s ++ c :: rest := by
  simp only [atEnd, List.append_assoc, List.singleton_append]

@[simp] theorem deref_concat : (atEnd before (s ++ [c]) rest reads writes).deref = c := by
  rw [Trim.deref, toNat_endPtr_concat, mem_concat]
  simp

theorem look_concat : (atEnd before (s ++ [c]) rest reads writes).look =
    atEnd before (s ++ [c]) rest (reads ++ [((before ++ s).length : ℤ)]) writes := by
  rw [← endPtr_concat before s rest c reads writes]
  rfl

theorem clear_concat : (atEnd before (s ++ [c]) rest reads writes).clear =
    atEnd before s (0 :: rest) reads (writes ++ [((before ++ s).length : ℤ)]) := by
  have hset : (before ++ s ++ c :: rest).set (before ++ s).length 0 =
      before ++ (s ++ 0 :: rest) := by simp
  rw [Trim.clear, toNat_endPtr_concat, mem_concat, endPtr_concat, hset, List.length_append,
    Int.natCast_add]
  rfl

end

theorem trimWhile_eq (before s rest : List UInt8) (reads writes : List ℤ) :
    ∃ looked cleared : List ℤ,
      (∀ i ∈ looked ++ cleared, (before.length : ℤ) < i ∧ i < before.length + s.length) ∧
      ∀ fuel, s.length < fuel →
        trimWhile before.length fuel (atEnd before s rest reads writes) =
          some (atEnd before (Sys2.trimTrailingWhitespace s)
            (List.replicate (s.length - (Sys2.trimTrailingWhitespace s).length) 0 ++ rest)
            (reads ++ looked) (writes ++ cleared)) := by
  induction s using List.reverseRecOn generalizing rest reads writes with
  | nil =>
      refine ⟨[], [], by simp, ?_⟩
      intro fuel hfuel
      obtain ⟨fuel, rfl⟩ := Nat.exists_eq_succ_of_ne_zero (Nat.ne_zero_of_lt hfuel)
      have hend : (atEnd before [] rest reads writes).endPtr ≤ before.length := by
        simp only [atEnd, List.length_nil]
        omega
      rw [trimWhile_stop hend, List.append_nil, List.append_nil]
      rfl
  | append_singleton s c ih =>
      have hend := endPtr_concat before s rest c reads writes
      by_cases hs : s = []
      · subst s
        refine ⟨[], [], by simp, ?_⟩
        intro fuel hfuel
        obtain ⟨fuel, rfl⟩ := Nat.exists_eq_succ_of_ne_zero (Nat.ne_zero_of_lt hfuel)
        rw [List.append_nil] at hend
        rw [trimWhile_stop (by omega), List.append_nil, List.append_nil]
        rfl
      · have hpos : 0 < s.length := List.length_pos_iff.2 hs
        have hlt : (before.length : ℤ) <
            (atEnd before (s ++ [c]) rest reads writes).endPtr := by
          rw [hend, List.length_append]
          omega
        have hbyte : ∀ i : ℤ, i = (before ++ s).length → (before.length : ℤ) < i ∧
            i < before.length + (s ++ [c]).length := by
          rintro i rfl
          rw [List.length_append, List.length_append, List.length_singleton]
          omega
        rw [trimTrailingWhitespace_concat hs]
        cases hc : isspace c with
        | false =>
            refine ⟨[(before ++ s).length], [], ?_, ?_⟩
            · intro i hi
              exact hbyte i (by simpa using hi)
            · intro fuel hfuel
              obtain ⟨fuel, rfl⟩ := Nat.exists_eq_succ_of_ne_zero (Nat.ne_zero_of_lt hfuel)
              rw [trimWhile_visible hlt (by rwa [deref_concat]), look_concat,
                if_neg Bool.false_ne_true, Nat.sub_self, List.append_nil]
              rfl
        | true =>
            obtain ⟨looked, cleared, hinside, hrun⟩ := ih (0 :: rest)
              (reads ++ [((before ++ s).length : ℤ)]) (writes ++ [((before ++ s).length : ℤ)])
            refine ⟨((before ++ s).length : ℤ) :: looked, ((before ++ s).length : ℤ) :: cleared,
              ?_, ?_⟩
            · intro i hi
              have hi : i = ((before ++ s).length : ℤ) ∨ i ∈ looked ++ cleared := by
                simp only [List.mem_append, List.mem_cons] at hi ⊢
                tauto
              rcases hi with hi | hi
              · exact hbyte i hi
              · have hbounds := hinside i hi
                rw [List.length_append, List.length_singleton]
                omega
            · intro fuel hfuel
              obtain ⟨fuel, rfl⟩ := Nat.exists_eq_succ_of_ne_zero (Nat.ne_zero_of_lt hfuel)
              have hnext := hrun fuel (by simpa using hfuel)
              have hle := (trimTrailingWhitespace_isPrefix s).length_le
              have hzeros : (s ++ [c]).length - (Sys2.trimTrailingWhitespace s).length =
                  s.length - (Sys2.trimTrailingWhitespace s).length + 1 := by
                rw [List.length_append, List.length_singleton]
                omega
              rw [trimWhile_clear hlt (by rwa [deref_concat]), look_concat, clear_concat, hnext,
                if_pos rfl, hzeros, List.replicate_succ', List.append_assoc _ [0] rest,
                List.append_assoc reads, List.append_assoc writes]
              rfl

/-- The array after a call: the trimmed string, and NULs where the rest of it was. -/
def trimmedMem (before s rest : List UInt8) : List UInt8 :=
  before ++ (Sys2.trimTrailingWhitespace s ++
    0 :: (List.replicate (s.length - (Sys2.trimTrailingWhitespace s).length) 0 ++ rest))

theorem trimTrailingWhitespace_eq (before rest : List UInt8) {s : List UInt8}
    (hs : (0 : UInt8) ∉ s) :
    ∃ t : Trim, (∀ fuel, s.length < fuel →
        trimTrailingWhitespace fuel (before ++ (s ++ 0 :: rest)) before.length = some t) ∧
      t.mem = trimmedMem before s rest ∧
      (∀ i ∈ t.reads, (before.length : ℤ) ≤ i ∧ i ≤ before.length + s.length) ∧
      ∀ i ∈ t.writes, (before.length : ℤ) ≤ i ∧ i < before.length + s.length := by
  have htext : text ((before ++ (s ++ 0 :: rest)).drop before.length) = s := by
    rw [List.drop_left, text_append_zero hs]
  have hcall : ∀ fuel,
      trimTrailingWhitespace fuel (before ++ (s ++ 0 :: rest)) before.length =
        trimWhile before.length fuel (atEnd before s (0 :: rest)
          ((List.range' before.length (s.length + 1)).map Nat.cast) []) := by
    intro fuel
    rw [trimTrailingWhitespace, stringReads, htext]
    rfl
  obtain ⟨looked, cleared, hinside, hrun⟩ := trimWhile_eq before s (0 :: rest)
    ((List.range' before.length (s.length + 1)).map Nat.cast) []
  refine ⟨_, fun fuel hfuel => (hcall fuel).trans (hrun fuel hfuel), ?_, ?_, ?_⟩
  · rw [atEnd, trimmedMem, ← List.cons_append, ← List.replicate_succ, List.replicate_succ',
      List.append_assoc, List.singleton_append]
  · intro i hi
    rcases List.mem_append.1 hi with hi | hi
    · obtain ⟨k, hk, rfl⟩ := List.mem_map.1 hi
      have hbounds := List.mem_range'_1.1 hk
      omega
    · have hbounds := hinside i (List.mem_append_left _ hi)
      omega
  · intro i hi
    have hbounds := hinside i (List.mem_append_right _ hi)
    omega

theorem text_trimmedMem (before rest : List UInt8) {s : List UInt8} (hs : (0 : UInt8) ∉ s) :
    text ((trimmedMem before s rest).drop before.length) = Sys2.trimTrailingWhitespace s := by
  have hzero : (0 : UInt8) ∉ Sys2.trimTrailingWhitespace s :=
    fun h => hs ((trimTrailingWhitespace_isPrefix s).subset h)
  rw [trimmedMem, List.drop_left, text_append_zero hzero]

/-- Whatever the string is, the call ends, stays inside and is stable, and the string that it
leaves is the one of the model on texts. -/
theorem exists_trimmed (s : Str) :
    ∃ t again, (∀ fuel, s.text.length < fuel →
        trimTrailingWhitespace fuel s.mem s.str = some t ∧
        trimTrailingWhitespace fuel t.mem s.str = some again) ∧
      text (t.mem.drop s.str) = Sys2.trimTrailingWhitespace s.text ∧ StaysInside s t ∧
      again.mem = t.mem := by
  obtain ⟨before, rest, hbefore, hmem⟩ := s.terminated.split
  change s.mem = before ++ (s.text ++ 0 :: rest) at hmem
  have hs : (0 : UInt8) ∉ s.text := zero_notMem_text _
  have hpart := trimTrailingWhitespace_isPrefix s.text
  have htrim : (0 : UInt8) ∉ Sys2.trimTrailingWhitespace s.text := fun h => hs (hpart.subset h)
  obtain ⟨t, hrun, ht, hreads, hwrites⟩ := trimTrailingWhitespace_eq before rest hs
  obtain ⟨again, hagain, hmem', -, -⟩ := trimTrailingWhitespace_eq before
    (List.replicate (s.text.length - (Sys2.trimTrailingWhitespace s.text).length) 0 ++ rest) htrim
  refine ⟨t, again, ?_, ?_, ?_, ?_⟩
  · intro fuel hfuel
    rw [hmem, ← hbefore, ht]
    exact ⟨hrun fuel hfuel, hagain fuel (Nat.lt_of_le_of_lt hpart.length_le hfuel)⟩
  · rw [ht, ← hbefore, text_trimmedMem before rest hs]
  · rw [hbefore] at hreads hwrites
    exact ⟨hreads, hwrites⟩
  · rw [hmem', ht, trimmedMem, trimTrailingWhitespace_idem, Nat.sub_self]
    rfl

theorem trimsTrailing_iff_text (s : Str) :
    TrimsTrailing s ↔ Sys2.trimTrailingWhitespace s.text = s.text.rdropWhile isspace := by
  obtain ⟨t, again, hrun, htext, hinside, hstable⟩ := exists_trimmed s
  constructor
  · rintro ⟨t', again', hrun', hlongest, -, -⟩
    have hsame : t = t' := Option.some.inj
      ((hrun _ (Nat.lt_succ_self _)).1.symm.trans (hrun' _ (Nat.lt_succ_self _)).1)
    rw [← hsame, htext, longestVisible_iff] at hlongest
    exact hlongest
  · intro h
    refine ⟨t, again, hrun, ?_, hinside, hstable⟩
    rw [htext, longestVisible_iff]
    exact h

theorem trim_trailing_whitespace_iff (s : Str) :
    TrimsTrailing s ↔ s.text = [] ∨ ∃ c ∈ s.text, isspace c = false := by
  rw [trimsTrailing_iff_text]
  exact trimTrailingWhitespace_eq_rdropWhile_iff s.text

/-- What `showinterface` is given by a command with a space behind its one separator. -/
def oneSpace : Str := ⟨[32, 0], 0, 1, Nat.zero_le 1, rfl⟩

theorem trim_leaves_space :
    trimTrailingWhitespace 2 oneSpace.mem oneSpace.str = some ⟨[32, 0], 0, [0, 1], []⟩ ∧
      oneSpace.text.rdropWhile isspace = [] ∧ ¬ TrimsTrailing oneSpace := by
  refine ⟨by decide, by decide, ?_⟩
  rw [trimsTrailing_iff_text]
  decide

end InPlace

end Sys2
