import LinuxDriver.Dtsofled
import LinuxDriver.UserCopy
import Mathlib.Data.UInt

/-!
# dtsofled: the LED

`dtsled_write` copies its command into an array of one byte and then obeys the byte that it finds
at the user's address. The LED is on while bit 3 of `GPIO1_DR` is 0.
-/

open UserCopy

namespace Dtsofled

def LEDOFF : UInt8 := 0

def LEDON : UInt8 := 1

def EFAULT : ℤ := 14

def bit3 : UInt32 := (1 : UInt32) <<< 3

def ledSwitch (sta : UInt8) (gpio1Dr : UInt32) : UInt32 :=
  if sta = LEDON then gpio1Dr &&& ~~~bit3
  else if sta = LEDOFF then gpio1Dr ||| bit3
  else gpio1Dr

/-- A call of `dtsled_write`: what `copy_from_user` moves, whether it clears the rest of its
destination, and what `buf[0]` reads afterwards, `none` when that faults. -/
structure LedCall where
  cnt : ℕ
  copy : Transfer UInt8 cnt
  pads : Bool
  buf0 : Option UInt8

/-- What a call leaves: the register, the bytes stored from `databuf` on and the result of a call
that comes back. -/
structure Written where
  gpio1Dr : UInt32
  databuf : List UInt8
  ret : Option ℤ

/-- The number of bytes left, in an `int`. -/
def LedCall.retvalue (c : LedCall) : Int32 := Int32.ofNat c.copy.left

def dtsledWrite (gpio1Dr : UInt32) (c : LedCall) : Written :=
  let databuf := c.copy.stored c.pads
  if c.retvalue < 0 then ⟨gpio1Dr, databuf, some (-EFAULT)⟩
  else
    match c.buf0 with
    | none => ⟨gpio1Dr, databuf, none⟩
    | some sta => ⟨ledSwitch sta gpio1Dr, databuf, some 0⟩

/-- What `dtsofled_exit` writes to the register before it unmaps it. -/
def dtsofledExitDr (gpio1Dr : UInt32) : UInt32 := gpio1Dr ||| bit3

def next (gpio1Dr : UInt32) (c : LedCall) : UInt32 := (dtsledWrite gpio1Dr c).gpio1Dr

def after (gpio1Dr : UInt32) (calls : List LedCall) : UInt32 := calls.foldl next gpio1Dr

def bit (dr : UInt32) (i : ℕ) : Bool := dr.toBitVec.getLsbD i

/-- Bit 3 after a command, or after no command. -/
def obeyed (level : Bool) : Option UInt8 → Bool
  | none => level
  | some sta => if sta = LEDON then false else if sta = LEDOFF then true else level

/-- The first byte of a copy that is complete. -/
def LedCall.received (c : LedCall) : Option UInt8 :=
  if c.copy.left = 0 then c.copy.moved.head? else none

/-- The LED follows the commands that arrive, and nothing else happens. -/
structure FollowsCommands (dr : UInt32) (calls : List LedCall) : Prop where
  stored : ∀ pre c post, calls = pre ++ c :: post →
    (dtsledWrite (after dr pre) c).databuf.length ≤ 1
  ignored : ∀ pre c post, calls = pre ++ c :: post → c.cnt = 0 ∨ c.copy.left ≠ 0 →
    after dr (pre ++ [c]) = after dr pre
  switched : ∀ pre c post command rest, calls = pre ++ c :: post → c.copy.left = 0 →
    c.copy.moved = command :: rest →
    bit (after dr (pre ++ [c])) 3 = obeyed (bit (after dr pre) 3) (some command)
  others : ∀ pre post, calls = pre ++ post → ∀ i, i ≠ 3 → bit (after dr pre) i = bit dr i
  unloaded : ∀ pre post, calls = pre ++ post → ∀ i,
    bit (dtsofledExitDr (after dr pre)) i = if i = 3 then true else bit (after dr pre) i

/-- At most one byte is moved, or asked for where the copy clears what it has not moved, and the
call is refused or `buf[0]` does to bit 3 what the command that has arrived does. -/
def LedCall.Obedient (dr : UInt32) (c : LedCall) : Prop :=
  (if c.pads then c.cnt else c.copy.moved.length) ≤ 1 ∧
    (c.retvalue < 0 ∨ obeyed (bit dr 3) c.buf0 = obeyed (bit dr 3) c.received)

/-! ## Bits -/

section

variable {dr dr' : UInt32} {i : ℕ}

theorem eq_iff_bits : dr = dr' ↔ ∀ i < 32, bit dr i = bit dr' i := by
  constructor
  · rintro rfl i _
    rfl
  · intro h
    apply UInt32.eq_of_toBitVec_eq
    exact BitVec.eq_of_getLsbD_eq fun i hi => h i hi

theorem toBitVec_bit3 : bit3.toBitVec = BitVec.twoPow 32 3 := rfl

theorem bit_set : bit (dr ||| bit3) i = if i = 3 then true else bit dr i := by
  rw [bit, UInt32.toBitVec_or, BitVec.getLsbD_or, toBitVec_bit3, BitVec.getLsbD_twoPow]
  by_cases h : i = 3
  · simp [h]
  · simp [h, Ne.symm h, bit]

theorem bit_clear (hi : i < 32) : bit (dr &&& ~~~bit3) i = if i = 3 then false else bit dr i := by
  rw [bit, UInt32.toBitVec_and, UInt32.toBitVec_not, BitVec.getLsbD_and, BitVec.getLsbD_not,
    toBitVec_bit3, BitVec.getLsbD_twoPow]
  by_cases h : i = 3
  · simp [h]
  · simp [h, Ne.symm h, hi, bit]

theorem bit_of_le (hi : 32 ≤ i) : bit dr i = false := BitVec.getLsbD_of_ge _ _ hi

theorem bit_ledSwitch (sta : UInt8) (hi : i < 32) :
    bit (ledSwitch sta dr) i = if i = 3 then obeyed (bit dr 3) (some sta) else bit dr i := by
  unfold ledSwitch
  by_cases hon : sta = LEDON
  · rw [if_pos hon, bit_clear hi, obeyed, if_pos hon]
  · by_cases hoff : sta = LEDOFF
    · rw [if_neg hon, if_pos hoff, bit_set, obeyed, if_neg hon, if_pos hoff]
    · rw [if_neg hon, if_neg hoff, obeyed, if_neg hon, if_neg hoff]
      split_ifs with h
      · rw [h]
      · rfl

end

/-! ## Calls -/

section

variable {dr : UInt32} {c : LedCall}

theorem dtsledWrite_of_neg (h : c.retvalue < 0) :
    dtsledWrite dr c = ⟨dr, c.copy.stored c.pads, some (-EFAULT)⟩ := by
  rw [dtsledWrite, if_pos h]

theorem dtsledWrite_of_fault (h : ¬ c.retvalue < 0) (hbuf : c.buf0 = none) :
    dtsledWrite dr c = ⟨dr, c.copy.stored c.pads, none⟩ := by
  rw [dtsledWrite, if_neg h, hbuf]

theorem dtsledWrite_of_byte {sta : UInt8} (h : ¬ c.retvalue < 0) (hbuf : c.buf0 = some sta) :
    dtsledWrite dr c = ⟨ledSwitch sta dr, c.copy.stored c.pads, some 0⟩ := by
  rw [dtsledWrite, if_neg h, hbuf]

theorem databuf_dtsledWrite : (dtsledWrite dr c).databuf = c.copy.stored c.pads := by
  by_cases h : c.retvalue < 0
  · rw [dtsledWrite_of_neg h]
  · cases hbuf : c.buf0 with
    | none => rw [dtsledWrite_of_fault h hbuf]
    | some sta => rw [dtsledWrite_of_byte h hbuf]

/-- What a call does to each bit. -/
theorem bit_next {i : ℕ} (hi : i < 32) :
    bit (next dr c) i =
      if i = 3 ∧ ¬ c.retvalue < 0 then obeyed (bit dr 3) c.buf0 else bit dr i := by
  by_cases h : c.retvalue < 0
  · rw [next, dtsledWrite_of_neg h, if_neg fun h' => h'.2 h]
  · cases hbuf : c.buf0 with
    | none =>
        rw [next, dtsledWrite_of_fault h hbuf]
        split_ifs with h3
        · rw [h3.1, obeyed]
        · rfl
    | some sta =>
        rw [next, dtsledWrite_of_byte h hbuf, bit_ledSwitch sta hi]
        simp only [h, not_false_eq_true, and_true]

theorem after_concat (pre : List LedCall) :
    after dr (pre ++ [c]) = next (after dr pre) c := List.foldl_append

theorem bit_next_of_ne {i : ℕ} (hi : i ≠ 3) :
    bit (next dr c) i = bit dr i := by
  rcases Nat.lt_or_ge i 32 with hlt | hge
  · rw [bit_next hlt, if_neg fun h => hi h.1]
  · rw [bit_of_le hge, bit_of_le hge]

theorem bit_after (calls : List LedCall) {i : ℕ} (hi : i ≠ 3) :
    bit (after dr calls) i = bit dr i := by
  induction calls using List.reverseRecOn with
  | nil => rfl
  | append_singleton calls c ih => rw [after_concat, bit_next_of_ne hi, ih]

/-- Nothing but bit 3 can tell that a call was made. -/
theorem next_eq_self_iff :
    next dr c = dr ↔ bit (next dr c) 3 = bit dr 3 := by
  constructor
  · intro h
    rw [h]
  · intro h
    rw [eq_iff_bits]
    intro i _
    by_cases hi : i = 3
    · rw [hi, h]
    · exact bit_next_of_ne hi

theorem LedCall.received_eq_none_iff : c.received = none ↔ c.cnt = 0 ∨ c.copy.left ≠ 0 := by
  unfold LedCall.received
  by_cases h : c.copy.left = 0
  · have hlength := left_eq_zero_iff.1 h
    rw [if_pos h, List.head?_eq_none_iff, ← List.length_eq_zero_iff, hlength]
    simp [h]
  · simp [h]

theorem LedCall.received_of_moved {command : UInt8} {rest : List UInt8} (hleft : c.copy.left = 0)
    (hmoved : c.copy.moved = command :: rest) : c.received = some command := by
  rw [LedCall.received, if_pos hleft, hmoved]
  rfl

theorem LedCall.received_of_retvalue_neg (h : c.retvalue < 0) : c.received = none := by
  rw [received_eq_none_iff]
  right
  intro hleft
  rw [retvalue, hleft] at h
  contradiction

/-- What the condition says of the call's effect. -/
theorem LedCall.obedient_iff : c.Obedient dr ↔ (dtsledWrite dr c).databuf.length ≤ 1 ∧
    bit (next dr c) 3 = obeyed (bit dr 3) c.received := by
  rw [databuf_dtsledWrite, length_stored, bit_next (by omega)]
  apply and_congr_right
  intro _
  by_cases h : c.retvalue < 0
  · rw [if_neg fun h' => h'.2 h, received_of_retvalue_neg h]
    exact iff_of_true (Or.inl h) rfl
  · rw [if_pos ⟨rfl, h⟩]
    exact or_iff_right h

end

/-- The LED follows the commands exactly when every call of the run is obedient. -/
theorem led_follows_commands_iff (dr : UInt32) (calls : List LedCall) :
    FollowsCommands dr calls ↔
      ∀ pre c post, calls = pre ++ c :: post → c.Obedient (after dr pre) := by
  constructor
  · intro h pre c post hcalls
    rw [LedCall.obedient_iff]
    refine ⟨h.stored pre c post hcalls, ?_⟩
    cases hcommand : c.received with
    | none =>
        have hsame := h.ignored pre c post hcalls (LedCall.received_eq_none_iff.1 hcommand)
        rw [after_concat] at hsame
        rw [hsame, obeyed]
    | some command =>
        rw [LedCall.received] at hcommand
        split_ifs at hcommand with hleft
        obtain ⟨rest, hmoved⟩ := List.head?_eq_some_iff.1 hcommand
        rw [← after_concat]
        exact h.switched pre c post command rest hcalls hleft hmoved
  · intro h
    have hbounds := fun pre c post hcalls => LedCall.obedient_iff.1 (h pre c post hcalls)
    constructor
    · intro pre c post hcalls
      exact (hbounds pre c post hcalls).1
    · intro pre c post hcalls hnone
      have hbit := (hbounds pre c post hcalls).2
      rw [LedCall.received_eq_none_iff.2 hnone] at hbit
      rw [after_concat, next_eq_self_iff]
      exact hbit
    · intro pre c post command rest hcalls hleft hmoved
      rw [after_concat, ← LedCall.received_of_moved hleft hmoved]
      exact (hbounds pre c post hcalls).2
    · intro pre post _ i hi
      exact bit_after pre hi
    · intro pre post _ i
      exact bit_set

/-- A write of no bytes by a user whose first byte is `LEDON`. -/
def emptyWrite : LedCall := ⟨0, ⟨[], Nat.le_refl 0⟩, false, some LEDON⟩

theorem led_obeys_empty_write :
    next 8 emptyWrite = 0 ∧ ¬ FollowsCommands 8 [emptyWrite] := by
  have hwrite : next 8 emptyWrite = 0 := by decide
  refine ⟨hwrite, ?_⟩
  intro h
  have hsame := h.ignored [] emptyWrite [] rfl (Or.inl rfl)
  rw [after_concat] at hsame
  have hzero : (0 : UInt32) = 8 := hwrite.symm.trans hsame
  contradiction

end Dtsofled
