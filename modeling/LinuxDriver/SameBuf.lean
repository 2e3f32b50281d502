import LinuxDriver.CString
import LinuxDriver.UserCopy
import Mathlib.Data.UInt

/-!
# Reads and writes of chrdevbase and newchrdevbase

`chrdevbase/chrdevbase.c` and `newchrdevbase/newchrdevbase.c` have the same pair of functions over
an array `samebuf`. A read copies the whole array whatever its count, a write copies its count
whatever the array, and both return 0.
-/

open UserCopy

namespace SameBuf

def sizeofSamebuf : ℕ := 100

/-- Memory from the start of `samebuf` on. -/
abbrev Memory := ℕ → UInt8

/-- How far `copy_to_user(buf, samebuf, sizeof(samebuf))` gets. -/
abbrev Reach := {k : ℕ // k ≤ sizeofSamebuf}

/-- What a call leaves: the memory, the bytes it moved, how many bytes of its destination it
stored to, what the copy returned and what it returns itself. -/
structure Outcome where
  mem : Memory
  moved : List UInt8
  stored : ℕ
  left : ℕ
  ret : ℤ

def readSamebuf (mem : Memory) (_count : ℕ) (reach : Reach) : Outcome where
  mem := mem
  moved := load mem reach
  stored := reach
  left := sizeofSamebuf - reach
  ret := 0

def writeSamebuf (pads : Bool) (mem : Memory) (count : ℕ) (copy : Transfer UInt8 count) :
    Outcome where
  mem := store (copy.stored pads) mem
  moved := copy.moved
  stored := (copy.stored pads).length
  left := copy.left
  ret := 0

def chrdevbaseRead : Memory → ℕ → Reach → Outcome := readSamebuf

def chrdevbaseWrite (pads : Bool) : Memory → (count : ℕ) → Transfer UInt8 count → Outcome :=
  writeSamebuf pads

def newchardevbaseRead : Memory → ℕ → Reach → Outcome := readSamebuf

def newchardevbaseWrite (pads : Bool) : Memory → (count : ℕ) → Transfer UInt8 count → Outcome :=
  writeSamebuf pads

inductive Driver
  | chrdevbase
  | newchrdevbase
  deriving DecidableEq

inductive Call
  | read (count : ℕ) (reach : Reach)
  | write (count : ℕ) (copy : Transfer UInt8 count)

def Call.isWrite : Call → Bool
  | .read _ _ => false
  | .write _ _ => true

/-- The `read` and `write` of `chrdevbase_fops` and `newchrled_fops`. -/
def Driver.run (pads : Bool) (mem : Memory) : Driver → Call → Outcome
  | .chrdevbase, .read count reach => chrdevbaseRead mem count reach
  | .chrdevbase, .write count copy => chrdevbaseWrite pads mem count copy
  | .newchrdevbase, .read count reach => newchardevbaseRead mem count reach
  | .newchrdevbase, .write count copy => newchardevbaseWrite pads mem count copy

def Driver.after (pads : Bool) (d : Driver) (mem : Memory) (calls : List Call) : Memory :=
  calls.foldl (fun mem c => (d.run pads mem c).mem) mem

/-- The bytes there is room for in the destination of a call. -/
def Call.room : Call → ℕ
  | .read count _ => count
  | .write _ _ => sizeofSamebuf

/-- Every call keeps to its destination and returns how many bytes it moved, and what a write
that succeeded put there is what the next reads deliver first. -/
structure MovesTruthfully (pads : Bool) (d : Driver) (mem : Memory) (calls : List Call) :
    Prop where
  bounded : ∀ pre c post, calls = pre ++ c :: post →
    (d.run pads (d.after pads mem pre) c).stored ≤ c.room
  reported : ∀ pre c post, calls = pre ++ c :: post →
    0 ≤ (d.run pads (d.after pads mem pre) c).ret →
    (d.run pads (d.after pads mem pre) c).ret = (d.run pads (d.after pads mem pre) c).moved.length
  roundTrip : ∀ pre k copy mid count reach post,
    calls = pre ++ .write k copy :: (mid ++ .read count reach :: post) →
    (∀ c ∈ mid, c.isWrite = false) → k ≤ sizeofSamebuf → k ≤ count → copy.left = 0 →
    0 ≤ (d.run pads (d.after pads mem pre) (.write k copy)).ret →
    (k : ℤ) ≤
        (d.run pads (d.after pads mem (pre ++ .write k copy :: mid)) (.read count reach)).ret ∧
      copy.moved <+:
        (d.run pads (d.after pads mem (pre ++ .write k copy :: mid)) (.read count reach)).moved

def Call.Idle (pads : Bool) : Call → Prop
  | .read _ reach => reach.1 = 0
  | .write _ copy => copy.moved = [] ∧ (copy.stored pads).length ≤ sizeofSamebuf

section

variable {pads : Bool} {d : Driver} {mem : Memory}

@[simp] theorem run_read (count : ℕ) (reach : Reach) :
    d.run pads mem (.read count reach) = readSamebuf mem count reach := by
  cases d <;> rfl

@[simp] theorem run_write (count : ℕ) (copy : Transfer UInt8 count) :
    d.run pads mem (.write count copy) = writeSamebuf pads mem count copy := by
  cases d <;> rfl

@[simp] theorem ret_run (c : Call) : (d.run pads mem c).ret = 0 := by
  cases d <;> cases c <;> rfl

theorem idle_iff {c : Call} :
    c.Idle pads ↔ (d.run pads mem c).moved = [] ∧ (d.run pads mem c).stored ≤ c.room := by
  cases c with
  | read count reach =>
      rw [run_read, readSamebuf, ← List.length_eq_zero_iff, length_load]
      constructor
      · intro hreach
        exact ⟨hreach, hreach.trans_le (Nat.zero_le _)⟩
      · exact And.left
  | write count copy =>
      rw [run_write, writeSamebuf]
      exact Iff.rfl

theorem after_append (calls calls' : List Call) :
    d.after pads mem (calls ++ calls') = d.after pads (d.after pads mem calls) calls' :=
  List.foldl_append

theorem after_of_reads {calls : List Call} (h : ∀ c ∈ calls, c.isWrite = false) :
    d.after pads mem calls = mem := by
  induction calls with
  | nil => rfl
  | cons c calls ih =>
      have hmem : (d.run pads mem c).mem = mem := by
        cases c with
        | read count reach => rw [run_read, readSamebuf]
        | write count copy => exact absurd (h _ List.mem_cons_self) (by simp [Call.isWrite])
      change d.after pads (d.run pads mem c).mem calls = mem
      rw [hmem]
      exact ih fun c' hc' => h c' (List.mem_cons_of_mem _ hc')

/-- A read that gets as far as the last write stored delivers those bytes first. -/
theorem read_after_write {k count : ℕ} {copy : Transfer UInt8 k} {pre mid : List Call}
    {reach : Reach} (hmid : ∀ c ∈ mid, c.isWrite = false) (hreach : k ≤ reach)
    (hleft : copy.left = 0) :
    copy.moved <+:
      (d.run pads (d.after pads mem (pre ++ .write k copy :: mid)) (.read count reach)).moved := by
  have hstored : copy.stored pads = copy.moved := by
    rw [Transfer.stored, hleft, List.replicate_zero, ite_self, List.append_nil]
  have hmem : d.after pads mem (pre ++ .write k copy :: mid) =
      store copy.moved (d.after pads mem pre) := by
    rw [after_append]
    change d.after pads (d.run pads _ (.write k copy)).mem mid = _
    rw [after_of_reads hmid, run_write, writeSamebuf, hstored]
  rw [run_read, hmem, readSamebuf]
  apply prefix_load_store
  rw [left_eq_zero_iff.1 hleft]
  exact hreach

end

theorem moved_eq_nil_of_reported {pads : Bool} {d : Driver} {mem : Memory} {calls : List Call}
    (h : MovesTruthfully pads d mem calls) {pre post : List Call} {c : Call}
    (hcalls : calls = pre ++ c :: post) :
    (d.run pads (d.after pads mem pre) c).moved = [] := by
  have hret := h.reported pre c post hcalls (Int.le_of_eq (ret_run c).symm)
  rw [ret_run] at hret
  exact List.length_eq_zero_iff.1 (by omega)

theorem movesTruthfully_iff {pads : Bool} {d : Driver} {mem : Memory} {calls : List Call} :
    MovesTruthfully pads d mem calls ↔ ∀ c ∈ calls, c.Idle pads := by
  constructor
  · intro h c hc
    obtain ⟨pre, post, hcalls⟩ := List.append_of_mem hc
    exact idle_iff.2 ⟨moved_eq_nil_of_reported h hcalls, h.bounded pre c post hcalls⟩
  · intro h
    have hidle : ∀ pre c post, calls = pre ++ c :: post → c.Idle pads := by
      rintro pre c post rfl
      exact h c (List.mem_append_right _ List.mem_cons_self)
    constructor
    · intro pre c post hcalls
      exact (idle_iff.1 (hidle pre c post hcalls)).2
    · intro pre c post hcalls _
      rw [ret_run, (idle_iff.1 (hidle pre c post hcalls)).1]
      rfl
    · intro pre k copy mid count reach post hcalls hmid _ _ hleft _
      have hnil := (hidle pre _ _ hcalls).1
      have hk := left_eq_zero_iff.1 hleft
      rw [hnil, List.length_nil] at hk
      subst hk
      rw [ret_run, hnil]
      exact ⟨Int.le_refl _, List.nil_prefix⟩

/-- The drivers keep to what the file says of them only as long as nothing is moved. The bytes
themselves are right: a read that gets as far as the last write stored delivers them first. -/
theorem samebuf_moves_truthfully_iff (pads : Bool) (d : Driver) (mem : Memory)
    (calls : List Call) :
    (MovesTruthfully pads d mem calls ↔ ∀ c ∈ calls, c.Idle pads) ∧
      ∀ pre k copy mid count reach post,
        calls = pre ++ .write k copy :: (mid ++ .read count reach :: post) →
        (∀ c ∈ mid, c.isWrite = false) → k ≤ reach.1 → copy.left = 0 → copy.moved <+:
          (d.run pads (d.after pads mem (pre ++ .write k copy :: mid)) (.read count reach)).moved :=
  ⟨movesTruthfully_iff, fun _ _ _ _ _ _ _ _ hmid hreach hleft =>
    read_after_write hmid hreach hleft⟩

def helloCalls : List Call :=
  [.write 5 ⟨CString.bytes "Hello", by decide⟩, .read 100 ⟨100, by decide⟩]

theorem samebuf_breaks_contract :
    (chrdevbaseWrite true (fun _ => 0) 101
        ⟨List.replicate 101 7, List.length_replicate.le⟩).stored = 101 ∧
      (chrdevbaseRead (fun _ => 0) 10 ⟨100, by decide⟩).stored = 100 ∧
      (chrdevbaseWrite true (fun _ => 0) 5 ⟨CString.bytes "Hello", by decide⟩).ret = 0 ∧
      ¬ MovesTruthfully true .chrdevbase (fun _ => 0) helloCalls := by
  have hstored : (chrdevbaseWrite true (fun _ => 0) 101
      ⟨List.replicate 101 7, List.length_replicate.le⟩).stored = 101 := by decide +kernel
  refine ⟨hstored, rfl, rfl, ?_⟩
  intro h
  have hcalls : helloCalls = [] ++ .write 5 ⟨CString.bytes "Hello", by decide⟩ ::
      [.read 100 ⟨100, by decide⟩] := rfl
  have hmoved := moved_eq_nil_of_reported h hcalls
  exact absurd hmoved (by decide)

end SameBuf
