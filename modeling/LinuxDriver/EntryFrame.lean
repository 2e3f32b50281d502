import LinuxDriver.Entry

/-!
# Frames on the kernel stack, and assertions about trap code

The words that trap code saves, from `%ebx` up to the `EFLAGS` that the CPU pushed. C code
called from the listing keeps to the calling convention; what it may do to the frame is to
leave another frame at its place. The rules carry an assertion about the registers and the
stack, and one about the interrupt flag, memory and the calls made, through a block.
-/

open I386 Assembly

namespace Entry

/-- The saved words, and what lies above them on the stack. -/
structure Frame where
  ebx : UInt32
  ecx : UInt32
  edx : UInt32
  esi : UInt32
  edi : UInt32
  ebp : UInt32
  eax : UInt32
  ds : UInt32
  es : UInt32
  origEax : UInt32
  eip : UInt32
  cs : UInt32
  eflags : UInt32
  above : List UInt32
  deriving DecidableEq

namespace Frame

variable (f : Frame)

def words : List UInt32 :=
  f.ebx :: f.ecx :: f.edx :: f.esi :: f.edi :: f.ebp :: f.eax :: f.ds :: f.es :: f.origEax ::
    f.eip :: f.cs :: f.eflags :: f.above

/-- Not a return to kernel code: the CPL of `%cs`, or VM86 mode. -/
def user : Bool := f.cs &&& 3 != 0 || f.eflags &&& VM_MASK != 0

/-- The registers that the frame saves. -/
def reg : Reg → UInt32
  | .eax => f.eax
  | .ebx => f.ebx
  | .ecx => f.ecx
  | .edx => f.edx
  | .esi => f.esi
  | .edi => f.edi
  | .ebp => f.ebp
  | .ds => f.ds
  | .es => f.es

/-- The registers as `RESTORE_ALL` reloads them: a selector that does not load becomes 0. -/
def reload (loads : UInt32 → Bool) : Reg → UInt32
  | .eax => f.eax
  | .ebx => f.ebx
  | .ecx => f.ecx
  | .edx => f.edx
  | .esi => f.esi
  | .edi => f.edi
  | .ebp => f.ebp
  | .ds => if loads f.ds then f.ds else 0
  | .es => if loads f.es then f.es else 0

theorem words_injective {f g : Frame} (h : f.words = g.words) : f = g := by
  cases f
  cases g
  simp only [words, List.cons.injEq] at h
  simp only [h]

end Frame

def named (f : Symbol) : Target Symbol := .callee (.named f)

def argWords : Target Symbol → ℕ
  | .address _ => 2
  | .callee (.named (.path .syscallAudit)) => 2
  | .callee (.named .doNmi) => 2
  | .callee (.named .mathEmulate) => 1
  | .callee (.named .scheduleTail) => 1
  | _ => 0

/-- How far above `%esp` the frame lies that a call leaves: `save_v86_state` returns the
address of another one. -/
def frameAt (t : Target Symbol) (after : Cpu) : ℕ :=
  if t = named .saveV86State then (after.core.reg .eax - after.core.esp).toNat / 4
  else argWords t

/-- The listing stores what a system call returns in the frame that the call leaves. -/
def stored (c : TrapCall Symbol) (f : Frame) : Frame :=
  match c.callee with
  | .callee (.slot _ _) => { f with eax := c.after.core.reg .eax }
  | _ => f

/-- A sequence of calls, with kernel data segments, that find frame `f` and leave frame `g`. -/
inductive Linked (o : Outside Symbol) (kernelDs : UInt32) :
    Frame → List (TrapCall Symbol) → Frame → Prop
  | refl (f : Frame) : Linked o kernelDs f [] f
  | call {f g h : Frame} {calls : List (TrapCall Symbol)} {c : TrapCall Symbol}
      (hcalls : Linked o kernelDs f calls g) (hcall : c.after = o.env c.callee c.before)
      (hsegments : c.before.core.reg .ds = kernelDs ∧ c.before.core.reg .es = kernelDs)
      (hbefore : c.before.core.stack.drop (argWords c.callee) = g.words)
      (hafter : c.after.core.stack.drop (frameAt c.callee c.after) = h.words) :
      Linked o kernelDs f (calls ++ [c]) (stored c h)

/-- The calling convention: a call returns with the registers of its caller and leaves a frame
under the words that it owns. The frame may be another one, and so may what lies behind it, as
for a signal handler or a new program. A null selector always loads. -/
structure Convention (o : Outside Symbol) : Prop where
  reg : ∀ t c r, r ≠ .eax → r ≠ .ecx → r ≠ .edx → (o.env t c).core.reg r = c.core.reg r
  stack : ∀ t c args (f : Frame), c.core.stack = args ++ f.words → args.length = argWords t →
    ∃ args' : List UInt32, ∃ g : Frame, (o.env t c).core.stack = args' ++ g.words ∧
      args'.length = args.length
  v86 : ∀ c (f : Frame), c.core.stack = f.words → ∃ g : Frame,
    (o.env (named .saveV86State) c).core.stack.drop
      (frameAt (named .saveV86State) (o.env (named .saveV86State) c)) = g.words
  null : o.loads 0 = true

def idleOutside : Outside Symbol where
  env t c := if t = named .saveV86State then c.setReg .eax c.core.esp else c
  address _ := 0xc0100000
  loads _ := true
  returns _ := true

theorem idleOutside_stack (t : Target Symbol) (c : Cpu) :
    (idleOutside.env t c).core.stack = c.core.stack := by
  unfold idleOutside
  dsimp only
  split <;> rfl

theorem convention_idleOutside : Convention idleOutside where
  reg t c r hr _ _ := by
    unfold idleOutside
    dsimp only
    split
    · exact if_neg hr
    · rfl
  stack t c args f hstack _ := ⟨args, f, (idleOutside_stack t c).trans hstack, rfl⟩
  v86 c f hstack := by
    refine ⟨f, ?_⟩
    have hframe : frameAt (named .saveV86State) (idleOutside.env (named .saveV86State) c) = 0 := by
      change (c.core.esp - c.core.esp).toNat / 4 = 0
      rw [UInt32.sub_self]
      rfl
    rw [hframe, idleOutside_stack]
    exact hstack
  null := rfl

def Frame.enter (f : Frame) (pushed : List UInt32) : Cpu :=
  ⟨⟨f.reg, pushed ++ f.eip :: f.cs :: f.eflags :: f.above, 0xc0002000, fun _ => 0, ⟨false, false⟩⟩,
    0, false, 0, 0x18⟩

def getpidFrame : Frame :=
  ⟨1, 2, 3, 4, 5, 6, 20, 0x2b, 0x2b, 20, 0x08048000, 0x23, 0x202, [0xbffff000, 0x2b]⟩

/-- What a trap knows beyond the registers and the stack: the interrupt flag, memory and the
calls made. -/
abbrev Beyond := Frame → Bool → (UInt32 → UInt8) → List (TrapCall Symbol) → Prop

theorem Linked.trans {o : Outside Symbol} {kernelDs : UInt32} {f g h : Frame}
    {calls calls' : List (TrapCall Symbol)} (hfg : Linked o kernelDs f calls g)
    (hgh : Linked o kernelDs g calls' h) : Linked o kernelDs f (calls ++ calls') h := by
  induction hgh with
  | refl => rwa [List.append_nil]
  | call _ hcall hsegments hbefore hafter ih =>
      rw [← List.append_assoc]
      exact .call ih hcall hsegments hbefore hafter

def Held (H : Beyond) (A : Frame → Cpu → Prop) (s : TrapState Symbol) : Prop :=
  ∃ f, A f s.cpu ∧ H f s.cpu.intr s.cpu.core.mem s.calls

def Quiet (H : Beyond) : Prop := ∀ f mem mem' calls, H f true mem calls → H f true mem' calls

structure Settled (H : Beyond) (A : Frame → Cpu → Prop) : Prop where
  cpu : ∀ f c mem, c.intr = true → A f c → A f (c.withMem mem)
  beyond : Quiet H

section Rules

variable {nrSyscalls kernelDs : UInt32} {o : Outside Symbol} {Q : Instr → TrapState Symbol → Prop}
  {n : ℕ} {H H' : Beyond} {A A' : Frame → Cpu → Prop} {i : Instr}
  {rest : List (Assembly.Line Label Instr)}

theorem Settled.stable (h : Settled H A) : (machine nrSyscalls kernelDs o).Stable (Held H A) := by
  rintro mem s ⟨f, hA, hH⟩
  change Held H A (s.interrupt mem)
  unfold TrapState.interrupt
  split
  · next hintr =>
      refine ⟨f, h.cpu f _ mem hintr hA, ?_⟩
      rw [hintr] at hH
      change H f s.cpu.intr mem s.calls
      rw [hintr]
      exact h.beyond f _ mem _ hH
  · exact ⟨f, hA, hH⟩

theorem foldl_step_cpu (is : List Instr) (s : TrapState Symbol) :
    is.foldl (fun s i => s.step i) s = ⟨is.foldl Cpu.step s.cpu, s.calls⟩ := by
  induction is generalizing s with
  | nil => rfl
  | cons i is ih => exact ih (s.step i)

theorem step_mem (c : Cpu) : (c.step i).core.mem = c.core.mem := by
  cases i with
  | core i => cases i with
    | movl src dst => cases dst <;> rfl
    | andl src dst => cases dst <;> rfl
    | _ => rfl
  | _ => rfl

theorem foldl_step_beyond {is : List Instr} (h : is.all TrapInstr.isStraight = true) (c : Cpu) :
    (is.foldl Cpu.step c).intr = c.intr ∧ (is.foldl Cpu.step c).core.mem = c.core.mem := by
  induction is generalizing c with
  | nil => exact ⟨rfl, rfl⟩
  | cons i is ih =>
      rw [List.all_cons, Bool.and_eq_true] at h
      obtain ⟨hintr, hmem⟩ := ih h.2 (c.step i)
      exact ⟨hintr.trans (Cpu.step_intr h.1 c), hmem.trans (step_mem c)⟩

theorem held_block {is : List Instr} (his : is.all TrapInstr.isStraight = true)
    (hpost : ∀ f c, A f c → A' f (is.foldl Cpu.step c)) (s : TrapState Symbol) (h : Held H A s) :
    Held H A' (is.foldl (fun s i => s.step i) s) := by
  obtain ⟨f, hA, hH⟩ := h
  rw [foldl_step_cpu]
  obtain ⟨hintr, hmem⟩ := foldl_step_beyond his s.cpu
  refine ⟨f, hpost f s.cpu hA, ?_⟩
  change H f (is.foldl Cpu.step s.cpu).intr (is.foldl Cpu.step s.cpu).core.mem s.calls
  rw [hintr, hmem]
  exact hH

theorem holds_block (A' : Frame → Cpu → Prop) {is : List Instr}
    (his : is.all TrapInstr.isStraight = true)
    (h : Settled H A) (hpost : ∀ f c, A f c → A' f (is.foldl Cpu.step c))
    (hnext : (machine nrSyscalls kernelDs o).Holds Q n (Held H A') rest) :
    (machine nrSyscalls kernelDs o).Holds Q n (Held H A) (is.map .instr ++ rest) :=
  Machine.Holds.straight (f := fun (i : Instr) (s : TrapState Symbol) => s.step i)
    (fun i hi => straight_of_isStraight (List.all_eq_true.1 his i hi)) h.stable
    (held_block his hpost) hnext

theorem holds_step (H' : Beyond) (A' : Frame → Cpu → Prop)
    (hexec : ∀ s : TrapState Symbol, s.exec o i = .next (s.step i)) (h : Settled H A)
    (hpost : ∀ f c calls, A f c → H f c.intr c.core.mem calls →
      A' f (c.step i) ∧ H' f (c.step i).intr (c.step i).core.mem calls)
    (hnext : (machine nrSyscalls kernelDs o).Holds Q n (Held H' A') rest) :
    (machine nrSyscalls kernelDs o).Holds Q n (Held H A) (.instr i :: rest) := by
  refine Machine.Holds.next h.stable ?_ hnext
  rintro s ⟨f, hA, hH⟩
  exact ⟨s.step i, hexec s, f, hpost f s.cpu s.calls hA hH⟩

/-- An instruction that writes a word of the frame leaves another frame. -/
theorem holds_store (H' : Beyond) (A' : Frame → Cpu → Prop)
    (hexec : ∀ s : TrapState Symbol, s.exec o i = .next (s.step i)) (h : Settled H A)
    (hpost : ∀ f c calls, A f c → H f c.intr c.core.mem calls →
      ∃ g, A' g (c.step i) ∧ H' g (c.step i).intr (c.step i).core.mem calls)
    (hnext : (machine nrSyscalls kernelDs o).Holds Q n (Held H' A') rest) :
    (machine nrSyscalls kernelDs o).Holds Q n (Held H A) (.instr i :: rest) := by
  refine Machine.Holds.next h.stable ?_ hnext
  rintro s ⟨f, hA, hH⟩
  exact ⟨s.step i, hexec s, hpost f s.cpu s.calls hA hH⟩

theorem holds_call (H' : Beyond) (A' : Frame → Cpu → Prop) {t : Frame → Target Symbol}
    (hexec : ∀ f (s : TrapState Symbol), A f s.cpu → s.exec o i = .next (s.call o (t f)))
    (h : Settled H A)
    (hpost : ∀ f c calls, A f c → H f c.intr c.core.mem calls → ∃ g, A' g (o.env (t f) c) ∧
      H' g (o.env (t f) c).intr (o.env (t f) c).core.mem (calls ++ [⟨t f, c, o.env (t f) c⟩]))
    (hnext : (machine nrSyscalls kernelDs o).Holds Q n (Held H' A') rest) :
    (machine nrSyscalls kernelDs o).Holds Q n (Held H A) (.instr i :: rest) := by
  refine Machine.Holds.next h.stable ?_ hnext
  rintro s ⟨f, hA, hH⟩
  exact ⟨s.call o (t f), hexec f s hA, hpost f s.cpu s.calls hA hH⟩

theorem holds_callReg (H' : Beyond) (A' : Frame → Cpu → Prop) {r : Reg} (h : Settled H A)
    (hpost : ∀ f c calls, A f c → H f c.intr c.core.mem calls →
      ∃ g, A' g (o.env (.address (c.core.reg r)) c) ∧
        H' g (o.env (.address (c.core.reg r)) c).intr (o.env (.address (c.core.reg r)) c).core.mem
          (calls ++ [⟨.address (c.core.reg r), c, o.env (.address (c.core.reg r)) c⟩]))
    (hnext : (machine nrSyscalls kernelDs o).Holds Q n (Held H' A') rest) :
    (machine nrSyscalls kernelDs o).Holds Q n (Held H A) (.instr (.callReg r) :: rest) := by
  refine Machine.Holds.next h.stable ?_ hnext
  rintro s ⟨f, hA, hH⟩
  exact ⟨s.call o (.address (s.cpu.core.reg r)), rfl, hpost f s.cpu s.calls hA hH⟩

variable {l : Label}

theorem holds_branch (H₁ : Beyond) (A₁ : Frame → Cpu → Prop) (H₂ : Beyond)
    (A₂ : Frame → Cpu → Prop) (taken : Cpu → Bool)
    (hexec : ∀ s : TrapState Symbol, s.exec o i = s.jumpIf (taken s.cpu) l)
    (h : Settled H A)
    (hfall : ∀ f c calls, A f c → H f c.intr c.core.mem calls → taken c = false →
      A₁ f c ∧ H₁ f c.intr c.core.mem calls)
    (hjump : ∀ f c calls, A f c → H f c.intr c.core.mem calls → taken c = true →
      A₂ f c ∧ H₂ f c.intr c.core.mem calls)
    (hnext : (machine nrSyscalls kernelDs o).Holds Q n (Held H₁ A₁) rest)
    (hgoto : (machine nrSyscalls kernelDs o).Holds Q n (Held H₂ A₂)
      (goto l (listing nrSyscalls kernelDs o.address))) :
    (machine nrSyscalls kernelDs o).Holds Q n (Held H A) (.instr i :: rest) := by
  refine Machine.Holds.branch h.stable ?_ hnext hgoto
  rintro s ⟨f, hA, hH⟩
  change (∃ s', s.exec o i = .next s' ∧ _) ∨ ∃ s', s.exec o i = .jump l s' ∧ _
  rw [hexec, TrapState.jumpIf]
  cases htaken : taken s.cpu with
  | false => exact Or.inl ⟨s, rfl, f, hfall f s.cpu s.calls hA hH htaken⟩
  | true => exact Or.inr ⟨s, rfl, f, hjump f s.cpu s.calls hA hH htaken⟩

theorem holds_jmp (h : Settled H A)
    (hgoto : (machine nrSyscalls kernelDs o).Holds Q n (Held H A)
      (goto l (listing nrSyscalls kernelDs o.address))) :
    (machine nrSyscalls kernelDs o).Holds Q n (Held H A) (.instr (.core (.jmp l)) :: rest) :=
  Machine.Holds.jump h.stable (fun s hs => ⟨s, rfl, hs⟩) hgoto

theorem holds_weaken {code : List (Assembly.Line Label Instr)}
    (hpost : ∀ f c calls, A f c → H f c.intr c.core.mem calls →
      A' f c ∧ H' f c.intr c.core.mem calls)
    (hcode : (machine nrSyscalls kernelDs o).Holds Q n (Held H' A') code) :
    (machine nrSyscalls kernelDs o).Holds Q n (Held H A) code :=
  hcode.weaken fun s ⟨f, hA, hH⟩ => ⟨f, hpost f s.cpu s.calls hA hH⟩

theorem holds_of_pure {φ : Prop} {code : List (Assembly.Line Label Instr)}
    (hcode : φ → (machine nrSyscalls kernelDs o).Holds Q n (Held H A) code) :
    (machine nrSyscalls kernelDs o).Holds Q n (Held H fun f c => A f c ∧ φ) code :=
  fun s ⟨f, hA, hH⟩ => hcode hA.2 s ⟨f, hA.1, hH⟩

theorem holds_label (h : Settled H A)
    (hrest : (machine nrSyscalls kernelDs o).Holds Q n (Held H A) rest) :
    (machine nrSyscalls kernelDs o).Holds Q n (Held H A) (.label l :: rest) :=
  (Machine.Holds.label h.stable hrest).anti (Nat.le_succ n)

end Rules

/-! ## What is read before the first call -/

/-- The memory that instruction `i` finds in a run from `start`, with no call made yet. -/
def Found (nrSyscalls kernelDs : UInt32) (o : Outside Symbol)
    (start : Config Label Instr (TrapState Symbol)) (ticks : List (Option (UInt32 → UInt8)))
    (i : Instr) (mem : UInt32 → UInt8) : Prop :=
  ∃ s, (machine nrSyscalls kernelDs o).Executes start ticks i s ∧ s.calls = [] ∧
    s.cpu.core.mem = mem

theorem passes_block {nrSyscalls kernelDs : UInt32} {o : Outside Symbol} {H : Beyond}
    {A : Frame → Cpu → Prop} (A' : Frame → Cpu → Prop) {is : List Instr}
    {rest code : List (Assembly.Line Label Instr)} {P : TrapState Symbol → Prop}
    (his : is.all TrapInstr.isStraight = true) (h : Settled H A)
    (hpost : ∀ f c, A f c → A' f (is.foldl Cpu.step c))
    (hrest : (machine nrSyscalls kernelDs o).Passes (Held H A') rest P code) :
    (machine nrSyscalls kernelDs o).Passes (Held H A) (is.map .instr ++ rest) P code :=
  Machine.Passes.straight (f := fun (i : Instr) (s : TrapState Symbol) => s.step i)
    (fun i hi => straight_of_isStraight (List.all_eq_true.1 his i hi)) h.stable
    (held_block his hpost) hrest

end Entry
