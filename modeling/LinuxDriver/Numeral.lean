import LinuxDriver.Sscanf

/-!
# Numerals in texts that sscanf reads

A numeral is an optional minus sign and at least one digit, of any length. The lemmas say what
the formats of sys2 store for a text that is put together from numerals, words and white space.
-/

namespace CString

structure Numeral where
  minus : Bool
  digits : List UInt8
  nonempty : digits ≠ []
  isdigit : ∀ c ∈ digits, CString.isdigit c = true

def Numeral.text (n : Numeral) : List UInt8 := if n.minus then 45 :: n.digits else n.digits

/-- The integer that the numeral denotes. -/
def Numeral.value (n : Numeral) : ℤ :=
  if n.minus then -(decimal n.digits : ℤ) else decimal n.digits

abbrev Blank := {s : List UInt8 // ∀ c ∈ s, isspace c = true}

/-- White space between two arguments. -/
abbrev Gap := {s : List UInt8 // s ≠ [] ∧ ∀ c ∈ s, isspace c = true}

/-- What may stand between a numeral and the numeral `n`: white space, or nothing in front of a
minus sign. -/
abbrev Between (n : Numeral) :=
  {s : List UInt8 // (s = [] → n.minus = true) ∧ ∀ c ∈ s, isspace c = true}

abbrev Word := {s : List UInt8 // s ≠ [] ∧ ∀ c ∈ s, isspace c = false}

/-- What may follow a numeral: text that does not go on with a digit. -/
abbrev Tail := {s : List UInt8 // ∀ c, s.head? = some c → isdigit c = false}

/-- The text starts, and not with white space. -/
def Visible (s : List UInt8) : Prop := ∃ c tail, s = c :: tail ∧ isspace c = false

theorem Visible.ne_nil {s : List UInt8} (h : Visible s) : s ≠ [] := by
  obtain ⟨c, tail, rfl, -⟩ := h
  exact List.cons_ne_nil c tail

theorem Visible.append {s : List UInt8} (h : Visible s) (rest : List UInt8) :
    Visible (s ++ rest) := by
  obtain ⟨c, tail, rfl, hc⟩ := h
  exact ⟨c, tail ++ rest, rfl, hc⟩

theorem isspace_of_isdigit {c : UInt8} (h : isdigit c = true) : isspace c = false := by
  unfold isdigit at h
  rw [Bool.and_eq_true, decide_eq_true_eq, decide_eq_true_eq] at h
  obtain ⟨hlo, hhi⟩ := h
  rw [UInt8.le_iff_toNat_le] at hlo hhi
  change 48 ≤ c.toNat at hlo
  change c.toNat ≤ 57 at hhi
  have hcontrol : ¬ c ≤ 13 := by
    rw [UInt8.le_iff_toNat_le]
    change ¬ c.toNat ≤ 13
    omega
  have hspace : c ≠ 32 := by
    rintro rfl
    exact absurd hlo (by decide)
  have hnobreak : c ≠ 160 := by
    rintro rfl
    exact absurd hhi (by decide)
  simp [isspace, hcontrol, hspace, hnobreak]

theorem isdigit_of_isspace {c : UInt8} (h : isspace c = true) : isdigit c = false := by
  cases hdigit : isdigit c with
  | false => rfl
  | true =>
      rw [isspace_of_isdigit hdigit] at h
      contradiction

section

variable {α : Type*} {p : α → Bool} {body rest : List α}

/-- The longest prefix that satisfies `p` ends where the text goes on with something else. -/
theorem takeWhile_append_stop (hbody : ∀ c ∈ body, p c = true)
    (hrest : ∀ c, rest.head? = some c → p c = false) : (body ++ rest).takeWhile p = body := by
  rw [List.takeWhile_append_of_pos hbody]
  cases rest with
  | nil => simp
  | cons c rest => simp [hrest c rfl]

theorem dropWhile_append_stop (hbody : ∀ c ∈ body, p c = true)
    (hrest : ∀ c, rest.head? = some c → p c = false) : (body ++ rest).dropWhile p = rest := by
  rw [List.dropWhile_append_of_pos hbody]
  cases rest with
  | nil => rfl
  | cons c rest => simp [hrest c rfl]

/-- What comes after an element that stops the prefix has no part in it. -/
theorem takeWhile_append_cons {c : α} (hc : p c = false) :
    (body ++ c :: rest).takeWhile p = body.takeWhile p := by
  induction body with
  | nil => simp [hc]
  | cons d body ih =>
      by_cases hd : p d = true
      · rw [List.cons_append, List.takeWhile_cons_of_pos hd, List.takeWhile_cons_of_pos hd, ih]
      · rw [List.cons_append, List.takeWhile_cons_of_neg hd, List.takeWhile_cons_of_neg hd]

theorem dropWhile_append_cons {c : α} (hc : p c = false) :
    (body ++ c :: rest).dropWhile p = body.dropWhile p ++ c :: rest := by
  induction body with
  | nil => simp [hc]
  | cons d body ih =>
      by_cases hd : p d = true
      · rw [List.cons_append, List.dropWhile_cons_of_pos hd, List.dropWhile_cons_of_pos hd, ih]
      · rw [List.cons_append, List.dropWhile_cons_of_neg hd, List.dropWhile_cons_of_neg hd]
        rfl

end

/-- A numeral starts with a minus sign or a digit. -/
theorem Numeral.visible (n : Numeral) : Visible n.text := by
  obtain ⟨minus, digits, hne, hdigits⟩ := n
  cases minus with
  | true => exact ⟨45, digits, rfl, rfl⟩
  | false =>
      obtain ⟨d, ds, rfl⟩ := List.exists_cons_of_ne_nil hne
      exact ⟨d, ds, rfl, isspace_of_isdigit (hdigits d List.mem_cons_self)⟩

theorem Word.visible (w : Word) : Visible w.1 := by
  obtain ⟨c, cs, hw⟩ := List.exists_cons_of_ne_nil w.2.1
  refine ⟨c, cs, hw, w.2.2 c ?_⟩
  rw [hw]
  exact List.mem_cons_self

theorem unsignedPart_text (n : Numeral) (rest : List UInt8) :
    unsignedPart (n.text ++ rest) = n.digits ++ rest := by
  obtain ⟨minus, digits, hne, hdigits⟩ := n
  cases minus with
  | true => rfl
  | false =>
      obtain ⟨d, ds, rfl⟩ := List.exists_cons_of_ne_nil hne
      have hd : d ≠ 45 := by
        rintro rfl
        exact absurd (hdigits 45 List.mem_cons_self) (by decide)
      simp only [Numeral.text, Bool.false_eq_true, if_false, List.cons_append]
      unfold unsignedPart
      split
      · next heq => exact absurd (List.cons.inj heq).1 hd
      · rfl

theorem head?_text (n : Numeral) (rest : List UInt8) :
    (n.text ++ rest).head? = some 45 ↔ n.minus = true := by
  obtain ⟨minus, digits, hne, hdigits⟩ := n
  cases minus with
  | true => simp [Numeral.text]
  | false =>
      obtain ⟨d, ds, rfl⟩ := List.exists_cons_of_ne_nil hne
      have hd : d ≠ 45 := by
        rintro rfl
        exact absurd (hdigits 45 List.mem_cons_self) (by decide)
      simp [Numeral.text, hd]

/-- `%d` reads the whole numeral and keeps the low 32 bits of it. -/
theorem scanInt_text (n : Numeral) {rest : List UInt8}
    (hrest : ∀ c, rest.head? = some c → isdigit c = false) :
    scanInt (n.text ++ rest) = some (toInt n.value, rest) := by
  have hdigits : (unsignedPart (n.text ++ rest)).takeWhile isdigit = n.digits := by
    rw [unsignedPart_text, takeWhile_append_stop n.isdigit hrest]
  have hafter : (unsignedPart (n.text ++ rest)).dropWhile isdigit = rest := by
    rw [unsignedPart_text, dropWhile_append_stop n.isdigit hrest]
  unfold scanInt
  simp only [hdigits, hafter, if_neg n.nonempty, head?_text, Numeral.value]
  cases n.minus <;> rfl

theorem scanInt_plus (rest : List UInt8) : scanInt (43 :: rest) = none := rfl

theorem isSome_scanInt (str : List UInt8) :
    (scanInt str).isSome = true ↔ (unsignedPart str).takeWhile isdigit ≠ [] := by
  unfold scanInt
  split_ifs <;> simp_all

/-- Whether there is a number does not depend on what follows a space. -/
theorem isSome_scanInt_append {str : List UInt8} (hne : str ≠ []) (rest : List UInt8) :
    (scanInt (str ++ 32 :: rest)).isSome = true ↔ (scanInt str).isSome = true := by
  have hpart : unsignedPart (str ++ 32 :: rest) = unsignedPart str ++ 32 :: rest := by
    obtain ⟨c, cs, rfl⟩ := List.exists_cons_of_ne_nil hne
    by_cases hminus : c = 45
    · subst hminus
      rfl
    · have hself : ∀ tail, unsignedPart (c :: tail) = c :: tail := by
        intro tail
        unfold unsignedPart
        split
        · next heq => exact absurd (List.cons.inj heq).1 hminus
        · rfl
      rw [List.cons_append, hself, hself, List.cons_append]
  rw [isSome_scanInt, isSome_scanInt, hpart, takeWhile_append_cons (by decide)]

/-- Spaces in front of a text that starts with none are skipped. -/
theorem skipSpaces_append {s t : List UInt8} (hs : ∀ c ∈ s, isspace c = true) (ht : Visible t) :
    skipSpaces (s ++ t) = t := by
  obtain ⟨c, tail, rfl, hc⟩ := ht
  apply dropWhile_append_stop hs
  rintro _ ⟨⟩
  exact hc

theorem Visible.skipSpaces {s : List UInt8} (h : Visible s) : CString.skipSpaces s = s :=
  skipSpaces_append (s := []) (by simp) h

section

variable {format : List Directive} {s rest : List UInt8}

theorem sscanf_d (hs : ∀ c ∈ s, isspace c = true) (n : Numeral)
    (hrest : ∀ c, rest.head? = some c → isdigit c = false) :
    sscanf (.d :: format) (s ++ (n.text ++ rest)) =
      .int (toInt n.value) :: sscanf format rest := by
  have hvisible := n.visible.append rest
  have hne := List.append_ne_nil_of_right_ne_nil s hvisible.ne_nil
  rw [sscanf, if_neg hne, skipSpaces_append hs hvisible, scanInt_text n hrest]

/-- `%d` knows no plus sign. -/
theorem sscanf_plus (hs : ∀ c ∈ s, isspace c = true) :
    sscanf (.d :: format) (s ++ 43 :: rest) = [] := by
  have hvisible : Visible (43 :: rest) := ⟨43, rest, rfl, rfl⟩
  have hne := List.append_ne_nil_of_right_ne_nil s hvisible.ne_nil
  rw [sscanf, if_neg hne, skipSpaces_append hs hvisible, scanInt_plus]

theorem sscanf_s (hs : ∀ c ∈ s, isspace c = true) (w : Word)
    (hrest : ∀ c, rest.head? = some c → isspace c = true) :
    sscanf (.s :: format) (s ++ (w.1 ++ rest)) = .str w.1 :: sscanf format rest := by
  have hvisible := w.visible.append rest
  have hne := List.append_ne_nil_of_right_ne_nil s hvisible.ne_nil
  have hword : ∀ c ∈ w.1, (!isspace c) = true := fun c hc => by rw [w.2.2 c hc]; rfl
  have hstop : ∀ c, rest.head? = some c → (!isspace c) = false := fun c hc => by
    rw [hrest c hc]
    rfl
  rw [sscanf, if_neg hne, skipSpaces_append hs hvisible]
  simp only [takeWhile_append_stop hword hstop, dropWhile_append_stop hword hstop]

theorem sscanf_space (hs : ∀ c ∈ s, isspace c = true) (hrest : Visible rest) :
    sscanf (.space :: format) (s ++ rest) = sscanf format rest := by
  rw [sscanf, skipSpaces_append hs hrest]

end

/-- The text after a numeral or a word goes on with a space when a gap follows. -/
theorem head_of_blank {s rest : List UInt8} (hspace : ∀ c ∈ s, isspace c = true) {c : UInt8}
    (h : (s ++ rest).head? = some c) : isspace c = true ∨ s = [] ∧ rest.head? = some c := by
  cases s with
  | nil => exact Or.inr ⟨rfl, h⟩
  | cons d ds =>
      rw [List.cons_append, List.head?_cons, Option.some.injEq] at h
      subst h
      exact Or.inl (hspace d List.mem_cons_self)

theorem Gap.head (gap : Gap) (rest : List UInt8) {c : UInt8}
    (h : (gap.1 ++ rest).head? = some c) : isspace c = true := by
  rcases head_of_blank gap.2.2 h with hspace | ⟨hnil, -⟩
  · exact hspace
  · exact absurd hnil gap.2.1

/-- What stands between two numerals ends the first. -/
theorem Between.head {n : Numeral} (apart : Between n) (rest : List UInt8) {c : UInt8}
    (h : (apart.1 ++ (n.text ++ rest)).head? = some c) : isdigit c = false := by
  rcases head_of_blank apart.2.2 h with hspace | ⟨hnil, hhead⟩
  · exact isdigit_of_isspace hspace
  · rw [(head?_text n rest).2 (apart.2.1 hnil), Option.some.injEq] at hhead
    subst hhead
    rfl

theorem scanD_text (before : Blank) (n : Numeral) (after : Tail) :
    scanD (before.1 ++ (n.text ++ after.1)) = some (toInt n.value) := by
  rw [scanD, sscanf_d before.2 n after.2]

theorem scanDD_text (before : Blank) (u n : Numeral) (apart : Between n) (after : Tail) :
    scanDD (before.1 ++ (u.text ++ (apart.1 ++ (n.text ++ after.1)))) =
      some (toInt u.value, toInt n.value) := by
  have hsecond : sscanf [.d] (n.text ++ after.1) = [.int (toInt n.value)] :=
    sscanf_d (s := []) (by simp) n after.2
  rw [scanDD, sscanf_d before.2 u fun c hc => apart.head _ hc,
    sscanf_space apart.2.2 (n.visible.append _), hsecond]

theorem scanSD_text (before : Blank) (name : Word) (gap : Gap) (n : Numeral) (after : Tail) :
    scanSD (before.1 ++ (name.1 ++ (gap.1 ++ (n.text ++ after.1)))) =
      some (name.1, toInt n.value) := by
  have hsecond : sscanf [.d] (n.text ++ after.1) = [.int (toInt n.value)] :=
    sscanf_d (s := []) (by simp) n after.2
  rw [scanSD, sscanf_s before.2 name fun c hc => gap.head _ hc,
    sscanf_space gap.2.2 (n.visible.append _), hsecond]

section Plus

variable (before : Blank) (rest : List UInt8)

theorem scanD_plus : scanD (before.1 ++ 43 :: rest) = none := by
  rw [scanD, sscanf_plus before.2]

theorem scanDD_plus : scanDD (before.1 ++ 43 :: rest) = none := by
  rw [scanDD, sscanf_plus before.2]

theorem scanDD_text_plus (u : Numeral) (blank : Blank) :
    scanDD (before.1 ++ (u.text ++ (blank.1 ++ 43 :: rest))) = none := by
  have hstop : ∀ c, (blank.1 ++ 43 :: rest).head? = some c → isdigit c = false := by
    intro c hc
    rcases head_of_blank blank.2 hc with hspace | ⟨-, hhead⟩
    · exact isdigit_of_isspace hspace
    · cases hhead
      rfl
  have hsecond : sscanf [.d] (43 :: rest) = [] := sscanf_plus (s := []) (by simp)
  rw [scanDD, sscanf_d before.2 u hstop, sscanf_space blank.2 ⟨43, rest, rfl, rfl⟩, hsecond]

theorem scanSD_plus (name : Word) (gap : Gap) :
    scanSD (before.1 ++ (name.1 ++ (gap.1 ++ 43 :: rest))) = none := by
  have hsecond : sscanf [.d] (43 :: rest) = [] := sscanf_plus (s := []) (by simp)
  rw [scanSD, sscanf_s before.2 name fun c hc => gap.head _ hc,
    sscanf_space gap.2.2 ⟨43, rest, rfl, rfl⟩, hsecond]

end Plus

/-! ## The low 32 bits -/

theorem toInt_eq_self {z : ℤ} (hlo : -0x80000000 ≤ z) (hhi : z < 0x80000000) : toInt z = z := by
  unfold toInt
  exact Int.bmod_eq_of_le (by omega) (by omega)

theorem ofInt_toInt (z : ℤ) : UInt32.ofInt (toInt z) = UInt32.ofInt z := by
  have hmod : toInt z % 2 ^ 32 = z % 2 ^ 32 := Int.bmod_emod
  unfold UInt32.ofInt
  rw [hmod]

end CString
