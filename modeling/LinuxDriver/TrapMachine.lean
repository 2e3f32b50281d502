import LinuxDriver.I386
import LinuxDriver.AssemblyLogic

/-!
# The i386 as trap code sees it

The small machine, with the interrupt flag, `%cr0`, segment loads and `iret`, which may fault
and then go on at the fixup that the exception table gives for them. While interrupts are on,
one may come between any two instructions; it may write any memory but returns to the
interrupted instruction with the registers and the stack as they were.
-/

namespace I386

/-- Code outside a listing that a call goes to. -/
inductive Target (Sym : Type*) where
  | callee (c : Callee Sym)
  | address (a : UInt32)
  deriving DecidableEq

structure Cpu where
  core : State
  /-- `EFLAGS`, but for the bits in `core.flags` and `intr`. -/
  eflags : UInt32
  intr : Bool
  cr0 : UInt32
  ss : UInt32

def wordAt (mem : UInt32 → UInt8) (a : UInt32) : UInt32 :=
  (mem a).toUInt32 ||| (mem (a + 1)).toUInt32 <<< 8 ||| (mem (a + 2)).toUInt32 <<< 16 |||
    (mem (a + 3)).toUInt32 <<< 24

namespace Cpu

variable (c : Cpu)

def CF_MASK : UInt32 := 0x00000001
def ZF_MASK : UInt32 := 0x00000040
def IF_MASK : UInt32 := 0x00000200

def eflagsWord : UInt32 :=
  (c.eflags &&& ~~~(CF_MASK ||| ZF_MASK ||| IF_MASK)) |||
    (if c.core.flags.cf then CF_MASK else 0) ||| (if c.core.flags.zf then ZF_MASK else 0) |||
    if c.intr then IF_MASK else 0

def push (w : UInt32) : Cpu := { c with core := c.core.push w }

def setReg (r : Reg) (w : UInt32) : Cpu := { c with core := c.core.set w (.reg r) }

def setFlags (zf cf : Bool) : Cpu := { c with core := { c.core with flags := ⟨zf, cf⟩ } }

def withMem (mem : UInt32 → UInt8) : Cpu := { c with core := { c.core with mem := mem } }

def dropStack (n : ℕ) : Cpu := { c with core := { c.core with stack := c.core.stack.drop n } }

end Cpu

/-- The instructions of the small machine, and those that only trap code uses. -/
inductive TrapInstr (Label Sym : Type*) where
  | core (i : Instr Label Sym)
  | cli
  | sti
  | pushfl
  | pushlSs
  | poplSeg (dst : Reg) (fixup : Label)
  | xorl (r : Reg)
  | decl (r : Reg)
  | addlEsp (bytes : ℕ)
  | movlMem (disp : UInt32) (base dst : Reg)
  | cmplMem (k disp : UInt32) (base : Reg)
  | movbAl (disp : ℕ)
  | testl (mask : UInt32) (src : Place)
  | movlEsp (src : Reg)
  | movlCr0 (dst : Reg)
  | callReg (r : Reg)
  | callNoReturn (f : Sym)
  | iret (fixup : Label)

/-- The same instruction under other names. -/
def Instr.map {L L' S S' : Type*} (f : L → L') (g : S → S') : Instr L S → Instr L' S'
  | .cld => .cld
  | .pushl src => .pushl src
  | .popl dst => .popl dst
  | .movl src dst => .movl src dst
  | .andl src dst => .andl src dst
  | .cmpl src dst => .cmpl src dst
  | .testb mask disp base => .testb mask disp base
  | .je l => .je (f l)
  | .jne l => .jne (f l)
  | .jae l => .jae (f l)
  | .jmp l => .jmp (f l)
  | .call h => .call (g h)
  | .callTable table index => .callTable (g table) index

structure TrapCall (Sym : Type*) where
  callee : Target Sym
  before : Cpu
  after : Cpu

structure TrapState (Sym : Type*) where
  cpu : Cpu
  calls : List (TrapCall Sym)

/-- What the listing does not decide: the code it calls, where that code lies, which
selectors a segment register takes, and which frames `iret` takes. -/
structure Outside (Sym : Type*) where
  env : Target Sym → Cpu → Cpu
  address : Sym → UInt32
  loads : UInt32 → Bool
  returns : Cpu → Bool

variable {Label Sym : Type*}

/-- Instructions that go on to the next line, write no memory outside the stack and read none,
and leave the interrupt flag alone. -/
def TrapInstr.isStraight : TrapInstr Label Sym → Bool
  | .core (.testb _ _ _) => false
  | .core i => i.isStraight
  | .pushfl | .pushlSs | .xorl _ | .decl _ | .addlEsp _ | .movbAl _ | .testl _ _ | .movlEsp _
  | .movlCr0 _ => true
  | _ => false

def Cpu.step (c : Cpu) : TrapInstr Label Sym → Cpu
  | .core i => { c with core := c.core.step i }
  | .cli => { c with intr := false }
  | .sti => { c with intr := true }
  | .pushfl => c.push c.eflagsWord
  | .pushlSs => c.push c.ss
  | .xorl r => (c.setReg r 0).setFlags true false
  | .decl r =>
      let w := c.core.reg r - 1
      (c.setReg r w).setFlags (w = 0) c.core.flags.cf
  | .addlEsp bytes =>
      let esp := c.core.esp + UInt32.ofNat bytes
      (c.dropStack (bytes / 4)).setFlags (esp = 0) (esp < c.core.esp)
  | .movlMem disp base dst => c.setReg dst (wordAt c.core.mem (c.core.reg base + disp))
  | .cmplMem k disp base =>
      let w := wordAt c.core.mem (c.core.reg base + disp)
      c.setFlags (w = k) (w < k)
  | .movbAl disp =>
      c.setReg .eax (c.core.reg .eax &&& 0xffffff00 ||| c.core.frame disp &&& 0xff)
  | .testl mask src => c.setFlags (c.core.get src &&& mask = 0) false
  | .movlEsp src => c.dropStack ((c.core.reg src - c.core.esp).toNat / 4)
  | .movlCr0 dst => c.setReg dst c.cr0
  | _ => c

namespace TrapState

variable (o : Outside Sym) (s : TrapState Sym)

def step (s : TrapState Sym) (i : TrapInstr Label Sym) : TrapState Sym :=
  { s with cpu := s.cpu.step i }

def call (t : Target Sym) : TrapState Sym :=
  ⟨o.env t s.cpu, s.calls ++ [⟨t, s.cpu, o.env t s.cpu⟩]⟩

def jumpIf (taken : Bool) (l : Label) : Assembly.Effect Label (TrapState Sym) :=
  if taken then .jump l s else .next s

def exec : TrapInstr Label Sym → Assembly.Effect Label (TrapState Sym)
  | .core (.je l) => s.jumpIf s.cpu.core.flags.zf l
  | .core (.jne l) => s.jumpIf (!s.cpu.core.flags.zf) l
  | .core (.jae l) => s.jumpIf (!s.cpu.core.flags.cf) l
  | .core (.jmp l) => .jump l s
  | .core (.call f) => .next (s.call o (.callee (.named f)))
  | .core (.callTable table index) =>
      .next (s.call o (.callee (.slot table (s.cpu.core.reg index))))
  | .callReg r => .next (s.call o (.address (s.cpu.core.reg r)))
  | .poplSeg dst fixup =>
      if o.loads (s.cpu.core.frame 0) then .next (s.step (.core (.popl dst) : TrapInstr Label Sym))
      else .jump fixup s
  | .callNoReturn _ => .leave
  | .iret fixup => if o.returns s.cpu then .leave else .jump fixup s
  | i => .next (s.step i)

/-- An interrupt, when they are on. -/
def interrupt (mem : UInt32 → UInt8) : TrapState Sym :=
  if s.cpu.intr then { s with cpu := s.cpu.withMem mem } else s

end TrapState

/-- The machine of a listing. -/
def trapMachine (o : Outside Sym) (listing : List (Assembly.Line Label (TrapInstr Label Sym))) :
    Assembly.Machine Label (TrapInstr Label Sym) (TrapState Sym) (UInt32 → UInt8) where
  listing := listing
  exec i s := s.exec o i
  event mem s := s.interrupt mem

section Rules

variable {o : Outside Sym} {listing : List (Assembly.Line Label (TrapInstr Label Sym))}
  {i : TrapInstr Label Sym}

theorem exec_of_isStraight (h : i.isStraight = true) (s : TrapState Sym) :
    s.exec o i = .next (s.step i) := by
  cases i with
  | core i => cases i <;> first | rfl | contradiction
  | _ => first | rfl | contradiction

theorem State.step_mem {i : Instr Label Sym} (h : (TrapInstr.core i).isStraight = true)
    (s : State) (mem : UInt32 → UInt8) :
    ({ s with mem := mem } : State).step i = { s.step i with mem := mem } := by
  have heval : ∀ src, ({ s with mem := mem } : State).eval src = s.eval src := by
    intro src
    cases src with
    | val p => cases p <;> rfl
    | _ => rfl
  have hset : ∀ w dst,
      ({ s with mem := mem } : State).set w dst = { s.set w dst with mem := mem } := by
    intro w dst
    cases dst <;> rfl
  have hget : ∀ dst, ({ s with mem := mem } : State).get dst = s.get dst := by
    intro dst
    cases dst <;> rfl
  cases i with
  | pushl src => simp only [step, push, heval]
  | movl src dst => simp only [step, heval, hset]
  | andl src dst => simp only [step, heval, hget, hset]
  | cmpl src dst => simp only [step, heval, hget]
  | _ => first | rfl | contradiction

theorem Cpu.step_withMem (h : i.isStraight = true) (c : Cpu) (mem : UInt32 → UInt8) :
    (c.withMem mem).step i = (c.step i).withMem mem := by
  cases i with
  | core i =>
      exact congrArg (fun core => ({ c with core := core } : Cpu)) (State.step_mem h c.core mem)
  | testl mask src => cases src <;> rfl
  | _ => first | rfl | contradiction

theorem Cpu.step_intr (h : i.isStraight = true) (c : Cpu) : (c.step i).intr = c.intr := by
  cases i <;> first | rfl | contradiction

theorem interrupt_step (h : i.isStraight = true) (mem : UInt32 → UInt8) (s : TrapState Sym) :
    (s.step i).interrupt mem = (s.interrupt mem).step i := by
  unfold TrapState.interrupt TrapState.step
  simp only [Cpu.step_intr h]
  split
  · rw [Cpu.step_withMem h]
  · rfl

theorem straight_of_isStraight (h : i.isStraight = true) :
    (trapMachine o listing).Straight (fun i s => s.step i) i :=
  ⟨exec_of_isStraight h, interrupt_step h⟩

end Rules

end I386
