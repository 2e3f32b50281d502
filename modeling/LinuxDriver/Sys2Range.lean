import LinuxDriver.Numeral
import LinuxDriver.Sys2Setters

/-!
# Which number the range checks of sys2 judge

`sscanf` keeps the low 32 bits of a numeral, and the setters check and use those. A numeral that
is out of range passes when its low bits are in range.
-/

open CString

namespace Sys2

abbrev Within (lo hi : ℤ) := {v : ℤ // lo ≤ v ∧ v ≤ hi}

/-- In every system the command does nothing, or the integer `z` is in range and the command
does what is asked for with `z`. -/
def Judged (lo hi z : ℤ) (run : System → System)
    (request : System → Within lo hi → Option Request) : Prop :=
  ∀ sys, run sys = sys ∨
    ∃ h : lo ≤ z ∧ z ≤ hi, run sys = sys.fulfil (request sys ⟨z, h⟩)

def NiceJudged (param : List UInt8) (z : ℤ) : Prop :=
  Judged (-20) 19 z (setAllTaskNice param) fun _ nice => some (.niceAll nice)

def PriorityJudged (param : List UInt8) (tid z : ℤ) : Prop :=
  Judged (-20) 19 z (fun sys => (setThreadPriorityIn param sys).1)
    fun sys nice => (sys.threadAt tid).map fun thread => .niceThread thread nice

def MtuJudged (param name : List UInt8) (z : ℤ) : Prop :=
  Judged 68 65535 z (fun sys => (setmtuIn param sys).1)
    fun sys mtu => (sys.lookupDevice name).map fun dev => .mtu dev mtu

def ValidUid (makeKuid : UInt32 → UInt32) (u : ℤ) : Prop :=
  (0 ≤ u ∧ u < 0x100000000) ∧ makeKuid (UInt32.ofInt u) ≠ invalidUid

def UserNiceJudged (makeKuid : UInt32 → UInt32) (param : List UInt8) (u z : ℤ) : Prop :=
  ∀ sys, setUserNiceByUid makeKuid param sys = sys ∨
    ValidUid makeKuid u ∧ ∃ h : -20 ≤ z ∧ z ≤ 19,
      setUserNiceByUid makeKuid param sys =
        sys.apply (.niceUser (makeKuid (UInt32.ofInt u)) ⟨z, h⟩)

/-- The integer is in range if its low 32 bits are. -/
def Faithful (lo hi z : ℤ) : Prop := lo ≤ toInt z ∧ toInt z ≤ hi → lo ≤ z ∧ z ≤ hi

theorem Faithful.toInt_eq {lo hi z : ℤ} (h : Faithful lo hi z) (hlo : -0x80000000 ≤ lo)
    (hhi : hi < 0x80000000) (hin : lo ≤ toInt z ∧ toInt z ≤ hi) : toInt z = z := by
  have hz := h hin
  apply toInt_eq_self
  · omega
  · omega

/-- A command that checks and uses the low 32 bits judges exactly the faithful integers, if what
it is asked for shows in some system. -/
theorem judged_iff {lo hi z : ℤ} {run : System → System}
    {request : System → Within lo hi → Option Request}
    (hrun : ∀ sys, run sys = if h : lo ≤ toInt z ∧ toInt z ≤ hi then
      sys.fulfil (request sys ⟨toInt z, h⟩) else sys)
    (hshows : ∃ sys : System, ∀ v, sys.fulfil (request sys v) ≠ sys)
    (hlo : -0x80000000 ≤ lo) (hhi : hi < 0x80000000) :
    Judged lo hi z run request ↔ Faithful lo hi z := by
  constructor
  · intro hjudged hin
    obtain ⟨sys, hchanges⟩ := hshows
    rcases hjudged sys with hsame | ⟨hz, -⟩
    · rw [hrun, dif_pos hin] at hsame
      exact absurd hsame (hchanges _)
    · exact hz
  · intro hfaithful sys
    rw [hrun]
    by_cases hin : lo ≤ toInt z ∧ toInt z ≤ hi
    · have heq := hfaithful.toInt_eq hlo hhi hin
      right
      refine ⟨hfaithful hin, ?_⟩
      rw [dif_pos hin]
      simp only [heq]
    · rw [dif_neg hin]
      exact Or.inl rfl

/-- A system in which every valid request changes something. -/
def target (uid : UInt32) (name : List UInt8) : System where
  task _ := ⟨1, uid, 20, none⟩
  processes := [0]
  device _ := ⟨name, 0, 0⟩
  deviceList := [0]
  pid _ := ⟨0, some 0⟩
  pidHash _ := some 0
  sock _ := ⟨0, 0, 0⟩

theorem target_niceUser_ne (uid : UInt32) (nice : Nice) :
    (target uid []).apply (.niceUser uid nice) ≠ target uid [] := by
  intro hsame
  have hnice := congrArg (fun sys => (sys.task 0).nice) hsame
  simp [target, System.apply, System.reniced] at hnice
  omega

theorem niceJudged_iff {param : List UInt8} {z : ℤ} (h : scanD param = some (toInt z)) :
    NiceJudged param z ↔ Faithful (-20) 19 z := by
  apply judged_iff
  · intro sys
    rw [setAllTaskNice_eq fun uid => uid, System.requested, h]
    simp only [Option.bind_eq_bind, Option.bind_some]
    split_ifs <;> rfl
  · refine ⟨target 0 [], ?_⟩
    intro nice hsame
    have hnice := congrArg (fun sys => (sys.task 0).nice) hsame
    simp [target, System.fulfil, System.apply, System.reniced] at hnice
    omega
  · decide
  · decide

theorem priorityJudged_iff {param : List UInt8} {tid z : ℤ}
    (h : scanDD param = some (tid, toInt z)) :
    PriorityJudged param tid z ↔ Faithful (-20) 19 z := by
  apply judged_iff
  · intro sys
    rw [setThreadPriorityIn_eq fun uid => uid, System.requested, h]
    simp only [Option.bind_eq_bind, Option.bind_some]
    cases sys.threadAt tid with
    | none => simp [System.fulfil]
    | some thread =>
        simp only [Option.bind_some, Option.map_some]
        split_ifs <;> rfl
  · refine ⟨target 0 [], ?_⟩
    intro nice hsame
    have hnice := congrArg (fun sys => (sys.task 0).nice) hsame
    simp [target, System.fulfil, System.apply, System.threadAt] at hnice
    omega
  · decide
  · decide

theorem mtuJudged_iff {param name : List UInt8} {z : ℤ}
    (h : scanSD param = some (name, toInt z)) :
    MtuJudged param name z ↔ Faithful 68 65535 z := by
  apply judged_iff
  · intro sys
    rw [setmtuIn_eq fun uid => uid, System.requested, h]
    simp only [Option.bind_eq_bind, Option.bind_some]
    cases sys.lookupDevice name with
    | none => simp [System.fulfil]
    | some dev =>
        simp only [Option.bind_some, Option.map_some]
        split_ifs <;> rfl
  · refine ⟨target 0 name, ?_⟩
    intro mtu hsame
    have hmtu := congrArg (fun sys => (sys.device 0).mtu) hsame
    simp [target, System.fulfil, System.apply, System.lookupDevice] at hmtu
    omega
  · decide
  · decide

theorem userNiceJudged_iff {makeKuid : UInt32 → UInt32} {param : List UInt8} {u z : ℤ}
    (h : scanDD param = some (toInt u, toInt z)) :
    UserNiceJudged makeKuid param u z ↔
      (makeKuid (UInt32.ofInt u) ≠ invalidUid → -20 ≤ toInt z ∧ toInt z ≤ 19 →
        (0 ≤ u ∧ u < 0x100000000) ∧ -20 ≤ z ∧ z ≤ 19) := by
  have hrun : ∀ sys, setUserNiceByUid makeKuid param sys =
      if makeKuid (UInt32.ofInt u) = invalidUid then sys
      else if h : -20 ≤ toInt z ∧ toInt z ≤ 19 then
        sys.apply (.niceUser (makeKuid (UInt32.ofInt u)) ⟨toInt z, h⟩) else sys := by
    intro sys
    rw [setUserNiceByUid_eq, System.requested, h]
    simp only [Option.bind_eq_bind, Option.bind_some, kuidOf, ofInt_toInt]
    split_ifs <;> rfl
  constructor
  · intro hjudged huid hin
    have hset := hrun (target (makeKuid (UInt32.ofInt u)) [])
    rw [if_neg huid, dif_pos hin] at hset
    rcases hjudged (target (makeKuid (UInt32.ofInt u)) []) with hsame | ⟨⟨hu, -⟩, hz, -⟩
    · rw [hsame] at hset
      exact absurd hset.symm (target_niceUser_ne _ _)
    · exact ⟨hu, hz⟩
  · intro hfaithful sys
    rw [hrun]
    by_cases huid : makeKuid (UInt32.ofInt u) = invalidUid
    · rw [if_pos huid]
      exact Or.inl rfl
    · rw [if_neg huid]
      by_cases hin : -20 ≤ toInt z ∧ toInt z ≤ 19
      · obtain ⟨hu, hz⟩ := hfaithful huid hin
        have heq : toInt z = z := toInt_eq_self (by omega) (by omega)
        right
        refine ⟨⟨hu, huid⟩, hz, ?_⟩
        rw [dif_pos hin]
        simp only [heq]
      · rw [dif_neg hin]
        exact Or.inl rfl

/-- The commands do nothing when the text has a plus sign in the place of a numeral. -/
structure PlusUnread (makeKuid : UInt32 → UInt32) (before blank : Blank) (gap : Gap) (name : Word)
    (u : Numeral) (rest : List UInt8) (sys : System) : Prop where
  nice : setAllTaskNice (before.1 ++ 43 :: rest) sys = sys
  userNice : ∀ param ∈ [before.1 ++ 43 :: rest, before.1 ++ (u.text ++ (blank.1 ++ 43 :: rest))],
    setUserNiceByUid makeKuid param sys = sys
  priority : ∀ param ∈ [before.1 ++ 43 :: rest, before.1 ++ (u.text ++ (blank.1 ++ 43 :: rest))],
    (setThreadPriorityIn param sys).1 = sys
  mtu : (setmtuIn (before.1 ++ (name.1 ++ (gap.1 ++ 43 :: rest))) sys).1 = sys

theorem plusUnread (makeKuid : UInt32 → UInt32) (before blank : Blank) (gap : Gap) (name : Word)
    (u : Numeral) (rest : List UInt8) (sys : System) :
    PlusUnread makeKuid before blank gap name u rest sys := by
  have hscan : ∀ param ∈
      [before.1 ++ 43 :: rest, before.1 ++ (u.text ++ (blank.1 ++ 43 :: rest))],
      scanDD param = none := by
    intro param hparam
    rw [List.mem_cons, List.mem_singleton] at hparam
    rcases hparam with rfl | rfl
    · exact scanDD_plus before rest
    · exact scanDD_text_plus before rest u blank
  constructor
  · rw [setAllTaskNice, scanD_plus]
  · intro param hparam
    rw [setUserNiceByUid, hscan param hparam]
  · intro param hparam
    rw [setThreadPriorityIn_eq makeKuid, System.requested, hscan param hparam]
    rfl
  · rw [setmtuIn_eq makeKuid, System.requested, scanSD_plus before rest name gap]
    rfl

/-- A range check of sys2 judges the number that was written exactly when the number is in range
if its low 32 bits are; a uid has to be one of those that have 32 bits. A number with a plus sign
is not read. -/
theorem sys2_ranges_judge_numerals_iff (makeKuid : UInt32 → UInt32) (before blank : Blank)
    (gap : Gap) (name : Word) (u n : Numeral) (apart : Between n) (after : Tail) :
    (NiceJudged (before.1 ++ (n.text ++ after.1)) n.value ↔ Faithful (-20) 19 n.value) ∧
    (UserNiceJudged makeKuid (before.1 ++ (u.text ++ (apart.1 ++ (n.text ++ after.1)))) u.value
        n.value ↔
      (makeKuid (UInt32.ofInt u.value) ≠ invalidUid →
        -20 ≤ toInt n.value ∧ toInt n.value ≤ 19 →
          (0 ≤ u.value ∧ u.value < 0x100000000) ∧ -20 ≤ n.value ∧ n.value ≤ 19)) ∧
    (PriorityJudged (before.1 ++ (u.text ++ (apart.1 ++ (n.text ++ after.1)))) (toInt u.value)
        n.value ↔ Faithful (-20) 19 n.value) ∧
    (MtuJudged (before.1 ++ (name.1 ++ (gap.1 ++ (n.text ++ after.1)))) name.1 n.value ↔
      Faithful 68 65535 n.value) ∧
    ∀ rest sys, PlusUnread makeKuid before blank gap name u rest sys := by
  refine ⟨?_, ?_, ?_, ?_, ?_⟩
  · exact niceJudged_iff (scanD_text before n after)
  · exact userNiceJudged_iff (scanDD_text before u n apart after)
  · exact priorityJudged_iff (scanDD_text before u n apart after)
  · exact mtuJudged_iff (scanSD_text before name gap n after)
  · exact plusUnread makeKuid before blank gap name u

/-- 2^32 + 5 is taken for 5, and 2^32 for the uid 0. -/
theorem sys2_ranges_miss_high_bits :
    (((setAllTaskNice (bytes "4294967301") (target 0 [])).task 0).nice = 5 ∧
      ¬ NiceJudged (bytes "4294967301") 4294967301) ∧
    ((setUserNiceByUid id (bytes "4294967296 5") (target 0 [])).task 0).nice = 5 ∧
      ¬ UserNiceJudged id (bytes "4294967296 5") 4294967296 5 := by
  have hall : ((setAllTaskNice (bytes "4294967301") (target 0 [])).task 0).nice = 5 := by
    decide +kernel
  have huser : ((setUserNiceByUid id (bytes "4294967296 5") (target 0 [])).task 0).nice = 5 := by
    decide +kernel
  refine ⟨⟨hall, ?_⟩, huser, ?_⟩
  · intro hjudged
    rcases hjudged (target 0 []) with hsame | ⟨⟨-, hhi⟩, -⟩
    · rw [hsame] at hall
      exact absurd hall (by decide)
    · exact absurd hhi (by decide)
  · intro hjudged
    rcases hjudged (target 0 []) with hsame | ⟨⟨⟨-, hhi⟩, -⟩, -⟩
    · rw [hsame] at huser
      exact absurd huser (by decide)
    · exact absurd hhi (by decide)

end Sys2
