import Mathlib.Data.List.Basic

/-!
# A small i386 machine

The machine runs a listing of labels and instructions. Its stack is the list of words from
`%esp` up to `top`; other memory is apart from it. A call to code outside the listing is a
function on states, recorded with the states before and after it. A word pushed by `call` is
popped by the callee's `ret` and does not appear.
-/

namespace I386

inductive Reg where
  | eax | ebx | ecx | edx | esi | edi | ebp | ds | es
  deriving DecidableEq, Repr

/-- A word that can be written: a register or `disp(%esp)`. -/
inductive Place where
  | reg (r : Reg)
  | frame (disp : ℕ)
  deriving DecidableEq, Repr

inductive Operand where
  | imm (w : UInt32)
  | esp
  | val (p : Place)
  deriving DecidableEq, Repr

structure Flags where
  zf : Bool
  cf : Bool
  deriving DecidableEq, Repr

@[ext] structure State where
  reg : Reg → UInt32
  stack : List UInt32
  top : UInt32
  mem : UInt32 → UInt8
  flags : Flags

namespace State

variable (s : State)

def esp : UInt32 := s.top - 4 * UInt32.ofNat s.stack.length

def frame (disp : ℕ) : UInt32 := s.stack.getD (disp / 4) 0

def get : Place → UInt32
  | .reg r => s.reg r
  | .frame disp => s.frame disp

def eval : Operand → UInt32
  | .imm w => w
  | .esp => s.esp
  | .val p => s.get p

def set (w : UInt32) : Place → State
  | .reg r => { s with reg := fun r' => if r' = r then w else s.reg r' }
  | .frame disp => { s with stack := s.stack.set (disp / 4) w }

def push (w : UInt32) : State := { s with stack := w :: s.stack }

def pop (r : Reg) : State := { s.set (s.frame 0) (.reg r) with stack := s.stack.tail }

variable {s}

theorem frame_set {disp : ℕ} (w : UInt32) (h : disp / 4 < s.stack.length) :
    (s.set w (.frame disp)).frame disp = w := by
  simp [set, frame, h]

theorem frame_set_of_ne {disp disp' : ℕ} (w : UInt32) (h : disp / 4 ≠ disp' / 4) :
    (s.set w (.frame disp)).frame disp' = s.frame disp' := by
  simp [set, frame, h]

theorem esp_eq {s' : State} (htop : s'.top = s.top)
    (hlen : s'.stack.length = s.stack.length) : s'.esp = s.esp := by
  rw [esp, esp, htop, hlen]

end State

/-- Code outside the listing: a function, or the one in a slot of a table. -/
inductive Callee (Sym : Type*) where
  | named (f : Sym)
  | slot (table : Sym) (index : UInt32)
  deriving DecidableEq

/-- The instructions, in the operand order of the assembler: source, then destination. -/
inductive Instr (Label Sym : Type*) where
  | cld
  | pushl (src : Operand)
  | popl (dst : Reg)
  | movl (src : Operand) (dst : Place)
  | andl (src : Operand) (dst : Place)
  | cmpl (src : Operand) (dst : Place)
  | testb (mask : UInt8) (disp : UInt32) (base : Reg)
  | je (l : Label)
  | jne (l : Label)
  | jae (l : Label)
  | jmp (l : Label)
  | call (f : Sym)
  | callTable (table : Sym) (index : Reg)

inductive Line (Label Sym : Type*) where
  | label (l : Label)
  | instr (i : Instr Label Sym)

structure Call (Sym : Type*) where
  callee : Callee Sym
  before : State
  after : State

structure Config (Label Sym : Type*) where
  code : List (Line Label Sym)
  state : State
  calls : List (Call Sym)

variable {Label Sym : Type*}

def Instr.isStraight : Instr Label Sym → Bool
  | .je _ | .jne _ | .jae _ | .jmp _ | .call _ | .callTable _ _ => false
  | _ => true

def State.step (s : State) : Instr Label Sym → State
  | .pushl src => s.push (s.eval src)
  | .popl dst => s.pop dst
  | .movl src dst => s.set (s.eval src) dst
  | .andl src dst =>
      let w := s.get dst &&& s.eval src
      { s.set w dst with flags := ⟨w = 0, false⟩ }
  | .cmpl src dst =>
      let a := s.get dst
      let b := s.eval src
      { s with flags := ⟨a = b, a < b⟩ }
  | .testb mask disp base =>
      let b := s.mem (s.reg base + disp)
      { s with flags := ⟨b &&& mask = 0, false⟩ }
  | _ => s

variable [DecidableEq Label]

/-- The listing from label `l` on. -/
def goto (l : Label) : List (Line Label Sym) → List (Line Label Sym)
  | [] => []
  | .label l' :: rest => if l' = l then .label l' :: rest else goto l rest
  | .instr _ :: rest => goto l rest

section Run

variable (prog : List (Line Label Sym)) (env : Callee Sym → State → State)

def Config.branch (c : Config Label Sym) (taken : Bool) (l : Label) : Config Label Sym :=
  if taken then { c with code := goto l prog } else c

def Config.make (c : Config Label Sym) (f : Callee Sym) : Config Label Sym :=
  { c with state := env f c.state, calls := c.calls ++ [⟨f, c.state, env f c.state⟩] }

def exec (c : Config Label Sym) : Instr Label Sym → Config Label Sym
  | .je l => c.branch prog c.state.flags.zf l
  | .jne l => c.branch prog (!c.state.flags.zf) l
  | .jae l => c.branch prog (!c.state.flags.cf) l
  | .jmp l => c.branch prog true l
  | .call f => c.make env (.named f)
  | .callTable table index => c.make env (.slot table (c.state.reg index))
  | i => { c with state := c.state.step i }

/-- Run until the label `exit` comes up. -/
def runTo (exit : Label) : ℕ → Config Label Sym → Option (Config Label Sym)
  | 0, _ => none
  | fuel + 1, c =>
      match c.code with
      | [] => none
      | .label l :: rest => if l = exit then some c else runTo exit fuel { c with code := rest }
      | .instr i :: rest => runTo exit fuel (exec prog env { c with code := rest } i)

/-- The run from `c` arrives at `exit` in configuration `out`. -/
def Reaches (exit : Label) (c out : Config Label Sym) : Prop :=
  ∃ fuel, runTo prog env exit fuel c = some out

variable {prog env} {exit l : Label} {i : Instr Label Sym} {rest : List (Line Label Sym)}
  {s : State} {calls : List (Call Sym)} {out : Config Label Sym}

theorem reaches_exit : Reaches prog env exit ⟨.label exit :: rest, s, calls⟩ out ↔
    out = ⟨.label exit :: rest, s, calls⟩ := by
  constructor
  · rintro ⟨fuel, h⟩
    cases fuel with
    | zero => contradiction
    | succ fuel =>
        simp only [runTo, if_pos] at h
        exact (Option.some.inj h).symm
  · rintro rfl
    exact ⟨1, if_pos rfl⟩

theorem reaches_label (hl : l ≠ exit) :
    Reaches prog env exit ⟨.label l :: rest, s, calls⟩ out ↔
      Reaches prog env exit ⟨rest, s, calls⟩ out := by
  constructor
  · rintro ⟨fuel, h⟩
    cases fuel with
    | zero => contradiction
    | succ fuel => exact ⟨fuel, by simpa only [runTo, if_neg hl] using h⟩
  · rintro ⟨fuel, h⟩
    exact ⟨fuel + 1, by simpa only [runTo, if_neg hl] using h⟩

theorem reaches_instr :
    Reaches prog env exit ⟨.instr i :: rest, s, calls⟩ out ↔
      Reaches prog env exit (exec prog env ⟨rest, s, calls⟩ i) out := by
  constructor
  · rintro ⟨fuel, h⟩
    cases fuel with
    | zero => contradiction
    | succ fuel => exact ⟨fuel, h⟩
  · rintro ⟨fuel, h⟩
    exact ⟨fuel + 1, h⟩

theorem reaches_branch {taken : Bool}
    (hexec : exec prog env ⟨rest, s, calls⟩ i = Config.branch prog ⟨rest, s, calls⟩ taken l) :
    Reaches prog env exit ⟨.instr i :: rest, s, calls⟩ out ↔
      Reaches prog env exit ⟨if taken then goto l prog else rest, s, calls⟩ out := by
  rw [reaches_instr, hexec]
  cases taken <;> rfl

theorem reaches_je : Reaches prog env exit ⟨.instr (.je l) :: rest, s, calls⟩ out ↔
    Reaches prog env exit ⟨if s.flags.zf then goto l prog else rest, s, calls⟩ out :=
  reaches_branch rfl

theorem reaches_jne : Reaches prog env exit ⟨.instr (.jne l) :: rest, s, calls⟩ out ↔
    Reaches prog env exit ⟨if !s.flags.zf then goto l prog else rest, s, calls⟩ out :=
  reaches_branch rfl

theorem reaches_jae : Reaches prog env exit ⟨.instr (.jae l) :: rest, s, calls⟩ out ↔
    Reaches prog env exit ⟨if !s.flags.cf then goto l prog else rest, s, calls⟩ out :=
  reaches_branch rfl

theorem reaches_jmp : Reaches prog env exit ⟨.instr (.jmp l) :: rest, s, calls⟩ out ↔
    Reaches prog env exit ⟨goto l prog, s, calls⟩ out :=
  reaches_instr

theorem reaches_call {f : Sym} :
    Reaches prog env exit ⟨.instr (.call f) :: rest, s, calls⟩ out ↔
      Reaches prog env exit
        ⟨rest, env (.named f) s, calls ++ [⟨.named f, s, env (.named f) s⟩]⟩ out :=
  reaches_instr

theorem reaches_callTable {table : Sym} {index : Reg} {n : UInt32} (hn : s.reg index = n) :
    Reaches prog env exit ⟨.instr (.callTable table index) :: rest, s, calls⟩ out ↔
      Reaches prog env exit ⟨rest, env (.slot table n) s,
        calls ++ [⟨.slot table n, s, env (.slot table n) s⟩]⟩ out := by
  rw [reaches_instr, ← hn]
  rfl

theorem exec_straight (h : i.isStraight = true) :
    exec prog env ⟨rest, s, calls⟩ i = ⟨rest, s.step i, calls⟩ := by
  cases i <;> first | rfl | contradiction

theorem reaches_step (h : i.isStraight = true) :
    Reaches prog env exit ⟨.instr i :: rest, s, calls⟩ out ↔
      Reaches prog env exit ⟨rest, s.step i, calls⟩ out := by
  rw [reaches_instr, exec_straight h]

theorem reaches_straight {is : List (Instr Label Sym)} (h : is.all Instr.isStraight = true) :
    Reaches prog env exit ⟨is.map .instr ++ rest, s, calls⟩ out ↔
      Reaches prog env exit ⟨rest, is.foldl State.step s, calls⟩ out := by
  induction is generalizing s with
  | nil => rfl
  | cons i is ih =>
      rw [List.all_cons, Bool.and_eq_true] at h
      obtain ⟨hi, his⟩ := h
      rw [List.map_cons, List.cons_append, reaches_step hi,
        ih his, List.foldl_cons]

end Run

theorem goto_append_of_notMem {l : Label} {before after : List (Line Label Sym)}
    (h : Line.label l ∉ before) : goto l (before ++ after) = goto l after := by
  induction before with
  | nil => rfl
  | cons line before ih =>
      have hrest := ih fun hmem => h (List.mem_cons_of_mem _ hmem)
      cases line with
      | instr i => exact hrest
      | label l' =>
          have hne : l' ≠ l := fun heq => h (heq ▸ List.mem_cons_self)
          rw [List.cons_append, goto, if_neg hne, hrest]

end I386
