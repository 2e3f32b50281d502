import LinuxDriver.KernelCalls

/-!
# dtsof: reading the backlight node

`dtsof/dtsof.c`. Four look-ups and reads, then the number of brightness levels, a block for them
and the levels themselves. The number comes as an `int` and is kept in a `u32`.
-/

open KernelCalls

namespace Dtsof

def EINVAL : ℤ := 22

def ENOMEM : ℤ := 12

/-- A number of cells; the length of a property in bytes is an `int`. -/
abbrev Count := {n : ℕ // 4 * n < 0x80000000}

/-- The node `/backlight` as the `of_` functions see it. -/
structure Node where
  compatible : Option (List UInt8)
  status : Except Errno (List UInt8)
  defaultBrightnessLevel : Except Errno UInt32
  count : Except Errno Count
  brightnessLevels : Except Errno (List UInt32)

/-- The device tree, and the block that `kmalloc` gives for a size. -/
structure Outcome where
  node : Option Node
  kmalloc : ℕ → Option ℕ

inductive Word
  | bits32
  | bits64
  deriving DecidableEq

def Word.values : Word → ℕ
  | .bits32 => 0x100000000
  | .bits64 => 0x10000000000000000

/-- What init leaves: `ret`, the size that it asked `kmalloc` for, the block that it got and the
blocks that it freed. -/
structure Init where
  ret : ℤ
  requested : Option ℕ
  brival : Option ℕ
  freed : List ℕ
  deriving DecidableEq

/-- The labels that only return `ret`. -/
def failReturn (ret : ℤ) : Init := ⟨ret, none, none, []⟩

/-- `fail_read32array`, which a successful read comes to as well. -/
def failRead32array (a : Init) (brival : ℕ) : Init :=
  { a with freed := a.freed ++ [brival], ret := 0 }

def readLevels (nd : Node) (size brival : ℕ) : Init :=
  let a : Init := ⟨0, some size, some brival, []⟩
  match nd.brightnessLevels with
  | .error e => failRead32array { a with ret := e } brival
  | .ok _ => failRead32array { a with ret := 0 } brival

/-- `kmalloc(elemsize * sizeof(u32), GFP_KERNEL)` -/
def allocate (w : Word) (o : Outcome) (nd : Node) (elemsize : UInt32) : Init :=
  let size := elemsize.toNat * 4 % w.values
  match o.kmalloc size with
  | none => ⟨-ENOMEM, some size, none, []⟩
  | some brival => readLevels nd size brival

def countResult : Except Errno Count → ℤ
  | .error e => e
  | .ok n => n

def countLevels (w : Word) (o : Outcome) (nd : Node) : Init :=
  let elemsize := UInt32.ofInt (countResult nd.count)
  if elemsize < 0 then failReturn (-EINVAL) else allocate w o nd elemsize

def readLevel (w : Word) (o : Outcome) (nd : Node) : Init :=
  match nd.defaultBrightnessLevel with
  | .error e => failReturn e
  | .ok _ => countLevels w o nd

def readStatus (w : Word) (o : Outcome) (nd : Node) : Init :=
  match nd.status with
  | .error e => failReturn e
  | .ok _ => readLevel w o nd

def findProperty (w : Word) (o : Outcome) (nd : Node) : Init :=
  match nd.compatible with
  | none => failReturn (-EINVAL)
  | some _ => readStatus w o nd

def dtsofInit (w : Word) (o : Outcome) : Init :=
  match o.node with
  | none => failReturn (-EINVAL)
  | some nd => findProperty w o nd

/-! ## What is reported -/

def Node.Reaches (nd : Node) : Prop :=
  nd.compatible ≠ none ∧ (∃ status, nd.status = .ok status) ∧
    ∃ level, nd.defaultBrightnessLevel = .ok level

def Outcome.Succeeds (o : Outcome) : Prop :=
  ∃ nd n, o.node = some nd ∧ nd.Reaches ∧ nd.count = .ok n ∧ o.kmalloc (4 * n) ≠ none ∧
    ∃ levels, nd.brightnessLevels = .ok levels

/-- Success and failure are told apart, and the block is one for the levels and does not stay. -/
structure Reports (o : Outcome) (a : Init) : Prop where
  zero_iff : a.ret = 0 ↔ o.Succeeds
  negative : a.ret ≠ 0 → a.ret < 0
  genuine : ∀ size, a.requested = some size →
    ∃ nd n, o.node = some nd ∧ nd.count = .ok n ∧ size = 4 * n
  freed : a.freed = a.brival.toList

/-- When init comes to count the levels there is a number of them, and when there is a block for
them they can be read. -/
def Outcome.LevelsReadable (o : Outcome) : Prop :=
  ∀ nd, o.node = some nd → nd.Reaches → ∃ n, nd.count = .ok n ∧
    (o.kmalloc (4 * n) ≠ none → ∃ levels, nd.brightnessLevels = .ok levels)

section

variable {w : Word} {o : Outcome} {nd : Node}

theorem enomem_neg : -ENOMEM < 0 := by decide

theorem elemsize_not_neg (elemsize : UInt32) : ¬ elemsize < 0 := by
  intro h
  have hlt : elemsize.toNat < 0 := h
  omega

theorem countLevels_eq :
    countLevels w o nd = allocate w o nd (UInt32.ofInt (countResult nd.count)) := by
  unfold countLevels
  dsimp only
  rw [if_neg (elemsize_not_neg _)]

theorem readLevels_eq (size brival : ℕ) :
    readLevels nd size brival = ⟨0, some size, some brival, [brival]⟩ := by
  unfold readLevels
  cases nd.brightnessLevels <;> rfl

theorem requested_allocate (elemsize : UInt32) :
    (allocate w o nd elemsize).requested = some (elemsize.toNat * 4 % w.values) := by
  unfold allocate
  cases hblock : o.kmalloc (elemsize.toNat * 4 % w.values) with
  | none => simp only [hblock]
  | some brival => simp only [hblock, readLevels_eq]

theorem size_of_ok {n : Count} (h : nd.count = .ok n) :
    (UInt32.ofInt (countResult nd.count)).toNat * 4 % w.values = 4 * n := by
  have hn := n.2
  have hword : 0x100000000 ≤ w.values := by cases w <;> decide
  have helemsize : (UInt32.ofInt (countResult nd.count)).toNat = n := by
    have hofNat : UInt32.ofInt (countResult nd.count) = UInt32.ofNat n := by
      rw [h, countResult, UInt32.ofInt]
      congr 1
      omega
    rw [hofNat]
    exact UInt32.toNat_ofNat_of_lt' (by change (n : ℕ) < 0x100000000; omega)
  rw [helemsize, Nat.mod_eq_of_lt (by omega), Nat.mul_comm]

theorem allocate_of_ok {n : Count} (h : nd.count = .ok n) :
    allocate w o nd (UInt32.ofInt (countResult nd.count)) =
      match o.kmalloc (4 * n) with
      | none => ⟨-ENOMEM, some (4 * n), none, []⟩
      | some brival => ⟨0, some (4 * n), some brival, [brival]⟩ := by
  unfold allocate
  simp only [size_of_ok h, readLevels_eq]

theorem dtsofInit_cases (w : Word) (o : Outcome) :
    (∃ ret, dtsofInit w o = failReturn ret ∧ ret < 0 ∧ ∀ nd, o.node = some nd → ¬ nd.Reaches) ∨
      ∃ nd, o.node = some nd ∧ nd.Reaches ∧
        dtsofInit w o = allocate w o nd (UInt32.ofInt (countResult nd.count)) := by
  unfold dtsofInit
  cases hnode : o.node with
  | none => exact Or.inl ⟨-EINVAL, rfl, by decide, by simp⟩
  | some nd =>
      simp only [Option.some.injEq, forall_eq', exists_eq_left']
      unfold findProperty
      cases hcompatible : nd.compatible with
      | none => exact Or.inl ⟨-EINVAL, rfl, by decide, fun h => h.1 hcompatible⟩
      | some compatible =>
          unfold readStatus
          cases hstatus : nd.status with
          | error e =>
              refine Or.inl ⟨e, rfl, e.2, ?_⟩
              rintro ⟨-, ⟨status, h⟩, -⟩
              rw [hstatus] at h
              contradiction
          | ok status =>
              unfold readLevel
              cases hlevel : nd.defaultBrightnessLevel with
              | error e =>
                  refine Or.inl ⟨e, rfl, e.2, ?_⟩
                  rintro ⟨-, -, ⟨level, h⟩⟩
                  rw [hlevel] at h
                  contradiction
              | ok level =>
                  right
                  refine ⟨⟨?_, ⟨status, hstatus⟩, ⟨level, hlevel⟩⟩, countLevels_eq⟩
                  rw [hcompatible]
                  exact Option.some_ne_none compatible

theorem reports_failReturn {ret : ℤ} (hret : ret < 0)
    (hno : ∀ nd, o.node = some nd → ¬ nd.Reaches) : Reports o (failReturn ret) := by
  constructor
  · apply iff_of_false (Int.ne_of_lt hret)
    rintro ⟨nd, n, hnode, hreaches, -⟩
    exact hno nd hnode hreaches
  · intro _
    exact hret
  · intro size hsize
    cases hsize
  · rfl

/-- With a number of levels, all depends on the block and on reading the levels into it. -/
theorem reports_allocate_iff (hnode : o.node = some nd) (hreaches : nd.Reaches) {n : Count}
    (hcount : nd.count = .ok n) :
    Reports o (allocate w o nd (UInt32.ofInt (countResult nd.count))) ↔
      (o.kmalloc (4 * n) ≠ none → ∃ levels, nd.brightnessLevels = .ok levels) := by
  have hsucceeds : o.Succeeds ↔
      o.kmalloc (4 * n) ≠ none ∧ ∃ levels, nd.brightnessLevels = .ok levels := by
    constructor
    · rintro ⟨nd', n', hnode', -, hcount', hblock, hlevels⟩
      cases hnode.symm.trans hnode'
      cases hcount.symm.trans hcount'
      exact ⟨hblock, hlevels⟩
    · rintro ⟨hblock, hlevels⟩
      exact ⟨nd, n, hnode, hreaches, hcount, hblock, hlevels⟩
  rw [allocate_of_ok hcount]
  cases hblock : o.kmalloc (4 * n) with
  | none =>
      apply iff_of_true
      · constructor
        · apply iff_of_false
          · exact Int.ne_of_lt enomem_neg
          · rw [hsucceeds]
            exact fun h => h.1 hblock
        · intro _
          exact enomem_neg
        · intro size hsize
          cases hsize
          exact ⟨nd, n, hnode, hcount, rfl⟩
        · rfl
      · intro h
        contradiction
  | some brival =>
      rw [hblock] at hsucceeds
      constructor
      · intro h _
        exact (hsucceeds.1 (h.zero_iff.1 rfl)).2
      · intro hlevels
        constructor
        · exact iff_of_true rfl (hsucceeds.2 ⟨by simp, hlevels (by simp)⟩)
        · intro h
          contradiction
        · intro size hsize
          cases hsize
          exact ⟨nd, n, hnode, hcount, rfl⟩
        · rfl

end

/-- Init tells the truth exactly when the levels can be counted, and be read if there is memory. -/
theorem dtsof_init_reports_iff (w : Word) (o : Outcome) :
    Reports o (dtsofInit w o) ↔ o.LevelsReadable := by
  rcases dtsofInit_cases w o with ⟨ret, heq, hret, hno⟩ | ⟨nd, hnode, hreaches, heq⟩
  · rw [heq]
    apply iff_of_true (reports_failReturn hret hno)
    intro nd hnode hreaches
    exact absurd hreaches (hno nd hnode)
  · have hreadable : o.LevelsReadable ↔ ∃ n, nd.count = .ok n ∧
        (o.kmalloc (4 * n) ≠ none → ∃ levels, nd.brightnessLevels = .ok levels) := by
      constructor
      · intro h
        exact h nd hnode hreaches
      · intro h nd' hnode' _
        cases hnode.symm.trans hnode'
        exact h
    rw [heq, hreadable]
    cases hcount : nd.count with
    | error e =>
        apply iff_of_false
        · intro h
          obtain ⟨nd', n, hnode', hcount', -⟩ := h.genuine _ (requested_allocate _)
          cases hnode.symm.trans hnode'
          rw [hcount] at hcount'
          contradiction
        · rintro ⟨n, hcount', -⟩
          contradiction
    | ok n =>
        rw [← hcount, reports_allocate_iff hnode hreaches hcount]
        constructor
        · intro hlevels
          exact ⟨n, hcount, hlevels⟩
        · rintro ⟨n', hcount', hlevels⟩
          cases hcount.symm.trans hcount'
          exact hlevels

theorem einval_neg : -EINVAL < 0 := by decide

def einval : Errno := ⟨-EINVAL, einval_neg⟩

def noLevels : Outcome where
  node := some ⟨some [], .ok [], .ok 3, .error einval, .error einval⟩
  kmalloc size := if size ≤ 0x400000 then some 1 else none

def lostLevels : Outcome where
  node := some ⟨some [], .ok [], .ok 3, .ok ⟨4, by decide⟩, .error einval⟩
  kmalloc _ := some 1

/-- The missing array turns into a request for 17 gigabytes, the unreadable one into success. -/
theorem dtsof_init_hides_failures :
    dtsofInit .bits64 noLevels = ⟨-ENOMEM, some 17179869096, none, []⟩ ∧
      ¬ Reports noLevels (dtsofInit .bits64 noLevels) ∧
      dtsofInit .bits32 lostLevels = ⟨0, some 16, some 1, [1]⟩ ∧
      ¬ Reports lostLevels (dtsofInit .bits32 lostLevels) := by
  have hrequest : dtsofInit .bits64 noLevels = ⟨-ENOMEM, some 17179869096, none, []⟩ := by decide
  have hsuccess : dtsofInit .bits32 lostLevels = ⟨0, some 16, some 1, [1]⟩ := by decide
  refine ⟨hrequest, ?_, hsuccess, ?_⟩
  · intro h
    obtain ⟨nd, n, hnode, hcount, -⟩ := h.genuine _ (congrArg Init.requested hrequest)
    cases hnode
    cases hcount
  · intro h
    obtain ⟨nd, n, hnode, -, -, -, levels, hlevels⟩ :=
      h.zero_iff.1 (congrArg Init.ret hsuccess)
    cases hnode
    cases hlevels

end Dtsof
