import LinuxDriver.EntryReturn

/-!
# Exceptions and the other ways into the kernel

Every trap builds the same frame and calls one handler. What the handler leaves is reloaded;
a trap from user mode goes by `ret_from_sys_call`, one from kernel mode straight back.
-/

open I386 Assembly

namespace Entry

/-- `movb CS(%esp),%al` puts the CPL beside the VM86 flag; the test sees both. -/
theorem mixed_test (f : Frame) :
    decide ((f.eflags &&& 0xffffff00 ||| f.cs &&& 0xff) &&& (VM_MASK ||| 3) = 0) = !f.user := by
  have hmix : (f.eflags &&& 0xffffff00 ||| f.cs &&& 0xff) &&& (VM_MASK ||| 3) =
      f.eflags &&& VM_MASK ||| f.cs &&& 3 := by
    apply UInt32.toBitVec_inj.1
    simp only [UInt32.toBitVec_and, UInt32.toBitVec_or]
    rw [BitVec.and_or_distrib_right, BitVec.and_assoc, BitVec.and_assoc]
    rfl
  rw [hmix, Frame.user]
  by_cases hcs : f.cs &&& 3 = 0 <;> by_cases hvm : f.eflags &&& VM_MASK = 0 <;>
    simp [UInt32.or_eq_zero_iff, hcs, hvm]

/-- What a trap ends as: straight back to kernel code, or by `ret_from_sys_call`. -/
def Finished (o : Outside Symbol) (kernelDs t : UInt32)
    (B : List (TrapCall Symbol) → Frame → Prop) : Beyond :=
  fun f intr mem calls => f.user = false ∧ B calls f ∨
    Since o kernelDs (fun calls g => g.user = true ∧ B calls g) (ReturnCalls t) f intr mem calls

section Back

variable {nrSyscalls kernelDs t : UInt32} {o : Outside Symbol} {n : ℕ}
  {B : List (TrapCall Symbol) → Frame → Prop}

theorem goto_retFromException (nrSyscalls kernelDs : UInt32) (address : Symbol → UInt32) : ∃ rest,
    goto .retFromException (listing nrSyscalls kernelDs address) =
      .label .retFromException :: (([.core (.movl (saved EFLAGS) (.reg .eax)), .movbAl CS,
        .testl (VM_MASK ||| 3) (.reg .eax)] : List Instr).map .instr ++
        .instr (.core (.jne (.path .retFromSysCall))) :: .instr (.core (.jmp .restoreAll)) ::
        rest) :=
  goto_block nrSyscalls kernelDs address (k := 16) rfl

theorem Exits.mono {H H' : Beyond} (hH : ∀ f intr mem calls, H f intr mem calls →
    H' f intr mem calls) (i : Instr) (s : TrapState Symbol) (h : Exits o H i s) :
    Exits o H' i s := by
  cases i with
  | iret fixup =>
      obtain ⟨hreturns, f, hf, hbeyond⟩ := h
      exact ⟨hreturns, f, hf, hH _ _ _ _ hbeyond⟩
  | callNoReturn g =>
      obtain ⟨hg, f, hiret, hstack, hbeyond⟩ := h
      exact ⟨hg, f, hiret, hstack, hH _ _ _ _ hbeyond⟩
  | _ => exact h

/-- `ret_from_exception` with the frame that the calls so far have left. -/
theorem holds_retFromException (hconv : Convention o) :
    (machine nrSyscalls kernelDs o).Holds (Exits o (Finished o kernelDs t B)) n
      (Held (fun f _ _ calls => B calls f) (AtFrame kernelDs t))
      (goto .retFromException (listing nrSyscalls kernelDs o.address)) := by
  obtain ⟨rest, hcode⟩ := goto_retFromException nrSyscalls kernelDs o.address
  have hquiet : Quiet fun f _ _ calls => B calls f := fun _ _ _ _ h => h
  have hin : Settled (fun f _ _ calls => B calls f) (AtFrame kernelDs t) := settled_atFrame hquiet
  have hkernel : Quiet fun f _ _ calls => f.user = false ∧ B calls f := fun _ _ _ _ h => h
  have hstraight : (machine nrSyscalls kernelDs o).Holds (Exits o (Finished o kernelDs t B)) n
      (Held (fun f _ _ calls => f.user = false ∧ B calls f) fun f c => c.core.stack = f.words)
      (goto .restoreAll (listing nrSyscalls kernelDs o.address)) :=
    (holds_back hconv.null hkernel).exit (Exits.mono fun _ _ _ _ h => .inl h)
  have hloop : (machine nrSyscalls kernelDs o).Holds (Exits o (Finished o kernelDs t B)) n
      (Held (fun f _ _ calls => f.user = true ∧ B calls f) (AtFrame kernelDs t))
      (goto (.path .retFromSysCall) (listing nrSyscalls kernelDs o.address)) :=
    (holds_ret (B := fun calls f => f.user = true ∧ B calls f) hconv).exit
      (Exits.mono fun _ _ _ _ h => .inr h)
  rw [hcode]
  refine holds_label hin (holds_block
    (fun f c => AtFrame kernelDs t f c ∧ c.core.flags.zf = !f.user) rfl hin ?_
    (holds_branch _ _ _ _ (fun c => !c.core.flags.zf) (fun _ => rfl)
      ⟨fun _ _ mem _ h => ⟨h.1.withMem mem, h.2⟩, hquiet⟩ ?_ ?_
      (holds_jmp ⟨fun _ _ _ _ h => h, hkernel⟩ hstraight) hloop))
  · rintro f ⟨⟨reg, stack, top, mem, flags⟩, eflags, intr, cr0, ss⟩ ⟨hstack, hebx, hds, hes⟩
    cases hstack
    exact ⟨⟨rfl, hebx, hds, hes⟩, mixed_test f⟩
  · rintro f c calls ⟨h, hzf⟩ hB htaken
    rw [hzf, Bool.not_not] at htaken
    exact ⟨h.stack, htaken, hB⟩
  · rintro f c calls ⟨h, hzf⟩ hB htaken
    rw [hzf, Bool.not_not] at htaken
    exact ⟨h, htaken, hB⟩

end Back

theorem Frame.withOrigEax {f : Frame} {w : UInt32} (h : f.origEax = w) :
    ({ f with origEax := w } : Frame) = f := by
  subst h
  rfl

structure Interrupted (f : Frame) (pushed : List UInt32) (top : UInt32) (c : Cpu) : Prop where
  reg : c.core.reg = f.reg
  stack : c.core.stack = pushed ++ f.eip :: f.cs :: f.eflags :: f.above
  top : c.core.top = top

theorem Frame.interrupted_enter (f : Frame) (pushed : List UInt32) :
    Interrupted f pushed 0xc0002000 (f.enter pushed) := ⟨rfl, rfl, rfl⟩

def fixupOf : List (Assembly.Line Label Instr) → Option Label
  | .instr (.iret fixup) :: _ => some fixup
  | _ => none

theorem leaves_of_fixupOf {nrSyscalls kernelDs : UInt32} {o : Outside Symbol}
    {c : Config Label Instr (TrapState Symbol)} {l : Label} (hcode : fixupOf c.code = some l)
    (hreturns : o.returns c.state.cpu = true) :
    (machine nrSyscalls kernelDs o).Leaves c (.iret l) := by
  obtain ⟨code, s⟩ := c
  match code, hcode with
  | .instr (.iret fixup) :: _, rfl => exact ⟨rfl, if_pos hreturns⟩

/-- `current`, found from a stack of `n` words. -/
def currentAt (top : UInt32) (n : ℕ) : UInt32 := -8192 &&& (top - 4 * UInt32.ofNat n)

/-- One call on frame `f₀`, with `args` pushed above it, which leaves `f`. -/
def CalledOnce (o : Outside Symbol) (kernelDs : UInt32) (f₀ : Frame) (target : Target Symbol)
    (args : UInt32 → List UInt32) (calls : List (TrapCall Symbol)) (f : Frame) : Prop :=
  ∃ c, calls = [c] ∧ c.callee = target ∧
    c.before.core.stack = args c.before.core.esp ++ f₀.words ∧ Linked o kernelDs f₀ [c] f

structure Calling (kernelDs t : UInt32) (f₀ : Frame) (args : UInt32 → List UInt32) (f : Frame)
    (c : Cpu) : Prop where
  frame : f = f₀
  stack : c.core.stack = args c.core.esp ++ f.words
  current : c.core.reg .ebx = t
  ds : c.core.reg .ds = kernelDs
  es : c.core.reg .es = kernelDs

structure Called (kernelDs t : UInt32) (k : ℕ) (f : Frame) (c : Cpu) : Prop where
  stack : ∃ args, args.length = k ∧ c.core.stack = args ++ f.words
  current : c.core.reg .ebx = t
  ds : c.core.reg .ds = kernelDs
  es : c.core.reg .es = kernelDs

theorem Called.drop {kernelDs t : UInt32} {k bytes : ℕ} {f : Frame} {c : Cpu}
    (h : Called kernelDs t k f c) (hbytes : bytes / 4 = k) :
    AtFrame kernelDs t f (c.step (.addlEsp bytes : Instr)) := by
  obtain ⟨⟨args, hlen, hstack⟩, hebx, hds, hes⟩ := h
  refine ⟨?_, hebx, hds, hes⟩
  change c.core.stack.drop (bytes / 4) = f.words
  rw [hstack, hbytes, ← hlen, List.drop_left]

theorem Called.popl {kernelDs t : UInt32} {k : ℕ} {f : Frame} {c : Cpu}
    (h : Called kernelDs t (k + 1) f c) :
    Called kernelDs t k f (c.step (.core (.popl .eax) : Instr)) := by
  obtain ⟨⟨args, hlen, hstack⟩, hebx, hds, hes⟩ := h
  obtain ⟨a, args', rfl⟩ := List.exists_cons_of_length_eq_add_one hlen
  exact ⟨⟨args', Nat.succ.inj hlen, congrArg List.tail hstack⟩, hebx, hds, hes⟩

theorem Called.atFrame {kernelDs t : UInt32} {f : Frame} {c : Cpu} (h : Called kernelDs t 0 f c) :
    AtFrame kernelDs t f c := by
  obtain ⟨⟨args, hlen, hstack⟩, hebx, hds, hes⟩ := h
  rw [List.length_eq_zero_iff.1 hlen] at hstack
  exact ⟨hstack, hebx, hds, hes⟩

def NoCalls : Beyond := fun _ _ _ calls => calls = []

theorem quiet_noCalls : Quiet NoCalls := fun _ _ _ _ h => h

section Handler

variable {nrSyscalls kernelDs t : UInt32} {o : Outside Symbol} {n : ℕ} {f₀ : Frame}
  {target : Target Symbol} {args : UInt32 → List UInt32} {i : Instr}
  {rest : List (Assembly.Line Label Instr)} {Q : Instr → TrapState Symbol → Prop}

theorem settled_calling {H : Beyond} (hH : Quiet H) :
    Settled H (Calling kernelDs t f₀ args) :=
  ⟨fun _ _ _ _ h => ⟨h.frame, h.stack, h.current, h.ds, h.es⟩, hH⟩

theorem settled_called {H : Beyond} (hH : Quiet H) (k : ℕ) : Settled H (Called kernelDs t k) :=
  ⟨fun _ _ _ _ h => ⟨h.stack, h.current, h.ds, h.es⟩, hH⟩

theorem Calling.call (hconv : Convention o) (hargs : ∀ esp, (args esp).length = argWords target)
    (hplain : ∀ c, frameAt target c = argWords target)
    (hstored : ∀ c f, c.callee = target → stored c f = f) {f : Frame} {c : Cpu}
    (h : Calling kernelDs t f₀ args f c) :
    ∃ g, Called kernelDs t (argWords target) g (o.env target c) ∧
      CalledOnce o kernelDs f₀ target args [⟨target, c, o.env target c⟩] g := by
  obtain ⟨rfl, hstack, hebx, hds, hes⟩ := h
  obtain ⟨args', g, hleft, hlen⟩ := hconv.stack target c (args c.core.esp) f hstack
    (hargs c.core.esp)
  rw [hargs] at hlen
  refine ⟨g, ⟨⟨args', hlen, hleft⟩, ?_, ?_, ?_⟩, ⟨target, c, o.env target c⟩, rfl, rfl, hstack, ?_⟩
  · rw [hconv.reg _ _ _ (by decide) (by decide) (by decide), hebx]
  · rw [hconv.reg _ _ _ (by decide) (by decide) (by decide), hds]
  · rw [hconv.reg _ _ _ (by decide) (by decide) (by decide), hes]
  · have hlinked := Linked.call (c := ⟨target, c, o.env target c⟩) (h := g)
      (Linked.refl f : Linked o kernelDs f [] f) rfl ⟨hds, hes⟩ ?_ ?_
    · rwa [hstored _ _ rfl] at hlinked
    · change c.core.stack.drop (argWords target) = f.words
      rw [hstack, ← hargs c.core.esp, List.drop_left]
    · change (o.env target c).core.stack.drop (frameAt target (o.env target c)) = g.words
      rw [hplain, hleft, ← hlen, List.drop_left]

theorem Calling.call_address (hconv : Convention o) {addr : UInt32}
    (hargs : ∀ esp, (args esp).length = 2) {f : Frame} {c : Cpu}
    (h : Calling kernelDs t f₀ args f c) :
    ∃ g, Called kernelDs t 2 g (o.env (.address addr) c) ∧
      CalledOnce o kernelDs f₀ (.address addr) args
        [⟨.address addr, c, o.env (.address addr) c⟩] g := by
  have hplain : ∀ c, frameAt (.address addr) c = argWords (.address addr) := fun _ => if_neg nofun
  refine Calling.call hconv hargs hplain ?_ h
  intro c f hc
  rw [stored, hc]

theorem holds_named (hconv : Convention o) {g : Symbol}
    (hargs : ∀ esp, (args esp).length = argWords (named g)) (hg : g ≠ .saveV86State)
    {A : Frame → Cpu → Prop} (hA : Settled NoCalls A)
    (hcalling : ∀ f c, A f c → Calling kernelDs t f₀ args f c)
    (hnext : (machine nrSyscalls kernelDs o).Holds Q n
      (Held (fun f _ _ calls => CalledOnce o kernelDs f₀ (named g) args calls f)
        (Called kernelDs t (argWords (named g)))) rest) :
    (machine nrSyscalls kernelDs o).Holds Q n (Held NoCalls A)
      (.instr (.core (.call g)) :: rest) := by
  refine holds_call _ _ (fun _ _ _ => rfl) hA ?_ hnext
  rintro f c calls hf rfl
  refine (hcalling f c hf).call hconv hargs (fun _ => if_neg ?_) ?_
  · intro heq
    cases heq
    exact hg rfl
  · intro c f hc
    rw [stored, hc]
    rfl

end Handler

/-- The exceptions for which the CPU pushes an error code. -/
def pushesCode : Exception → Bool
  | .doubleFault | .invalidTSS | .segmentNotPresent | .stackSegment | .generalProtection
  | .alignmentCheck | .pageFault => true
  | _ => false

def errorWords (e : Exception) (code : UInt32) : List UInt32 := if pushesCode e then [code] else []

def handed (e : Exception) (code : UInt32) : UInt32 := if pushesCode e then code else 0

section Exceptions

variable {nrSyscalls kernelDs top : UInt32} {o : Outside Symbol} {n : ℕ} {f₀ : Frame}
  {e : Exception} {code : UInt32}

theorem goto_errorCode (nrSyscalls kernelDs : UInt32) (address : Symbol → UInt32) : ∃ rest,
    goto .errorCode (listing nrSyscalls kernelDs address) =
    .label .errorCode :: ((errorFrame kernelDs).map .instr ++ .instr (.callReg .edi) ::
      .instr (.addlEsp 8) :: .instr (.core (.jmp .retFromException)) :: rest) :=
  goto_block nrSyscalls kernelDs address (k := 19) rfl

/-- Every entry pushes a word where the CPU pushes none, and comes to `error_code`. -/
theorem goto_trap (nrSyscalls kernelDs : UInt32) (address : Symbol → UInt32) (e : Exception) :
    goto (.trap e) (listing nrSyscalls kernelDs address) =
        .label (.trap e) :: ((trapPushes address (pushesCode e) e).map .instr ++
          goto .errorCode (listing nrSyscalls kernelDs address)) ∨
      ∃ rest, goto (.trap e) (listing nrSyscalls kernelDs address) =
        .label (.trap e) :: ((trapPushes address (pushesCode e) e).map .instr ++
          .instr (.core (.jmp .errorCode)) :: rest) := by
  cases e with
  | divideError => exact .inl (goto_next nrSyscalls kernelDs address (k := 18) rfl rfl)
  | coprocessorError => exact .inr (goto_block nrSyscalls kernelDs address (k := 20) rfl)
  | simdCoprocessorError => exact .inr (goto_block nrSyscalls kernelDs address (k := 21) rfl)
  | debug => exact .inr (goto_block nrSyscalls kernelDs address (k := 24) rfl)
  | int3 => exact .inr (goto_block nrSyscalls kernelDs address (k := 29) rfl)
  | overflow => exact .inr (goto_block nrSyscalls kernelDs address (k := 30) rfl)
  | bounds => exact .inr (goto_block nrSyscalls kernelDs address (k := 31) rfl)
  | invalidOp => exact .inr (goto_block nrSyscalls kernelDs address (k := 32) rfl)
  | coprocessorSegmentOverrun => exact .inr (goto_block nrSyscalls kernelDs address (k := 33) rfl)
  | doubleFault => exact .inr (goto_block nrSyscalls kernelDs address (k := 34) rfl)
  | invalidTSS => exact .inr (goto_block nrSyscalls kernelDs address (k := 35) rfl)
  | segmentNotPresent => exact .inr (goto_block nrSyscalls kernelDs address (k := 36) rfl)
  | stackSegment => exact .inr (goto_block nrSyscalls kernelDs address (k := 37) rfl)
  | generalProtection => exact .inr (goto_block nrSyscalls kernelDs address (k := 38) rfl)
  | alignmentCheck => exact .inr (goto_block nrSyscalls kernelDs address (k := 39) rfl)
  | pageFault => exact .inr (goto_block nrSyscalls kernelDs address (k := 40) rfl)
  | machineCheck => exact .inr (goto_block nrSyscalls kernelDs address (k := 41) rfl)
  | spuriousInterruptBug => exact .inr (goto_block nrSyscalls kernelDs address (k := 42) rfl)

def handlerArgs (code esp : UInt32) : List UInt32 := [esp + 8, code]

theorem esp_add_eight (top : UInt32) (n : ℕ) :
    top - 4 * UInt32.ofNat (n + 2) + 8 = top - 4 * UInt32.ofNat n := by
  rw [UInt32.ofNat_add]
  grind

theorem calling_errorFrame (horig : f₀.origEax = -1) (addr : UInt32) {f : Frame} {c : Cpu}
    (hf : f = f₀) (h : Interrupted f [addr, code] top c) :
    Calling kernelDs (currentAt top (f₀.above.length + 15)) f₀ (handlerArgs code) f
        ((errorFrame kernelDs).foldl Cpu.step c) ∧
      ((errorFrame kernelDs).foldl Cpu.step c).core.reg .edi = addr := by
  subst hf
  obtain ⟨⟨reg, stack, top', mem, flags⟩, eflags, intr, cr0, ss⟩ := c
  obtain ⟨hreg, hstack, htop⟩ := h
  cases hreg
  cases hstack
  cases htop
  refine ⟨⟨rfl, ?_, rfl, rfl, rfl⟩, rfl⟩
  change (top' - 4 * UInt32.ofNat (f.above.length + 13)) :: code ::
      ({ f with origEax := -1 } : Frame).words =
    (top' - 4 * UInt32.ofNat (f.above.length + 15) + 8) :: code :: f.words
  rw [Frame.withOrigEax horig, esp_add_eight top' (f.above.length + 13)]

theorem holds_errorCode (hconv : Convention o) (horig : f₀.origEax = -1) (addr : UInt32) :
    (machine nrSyscalls kernelDs o).Holds
      (Exits o (Finished o kernelDs (currentAt top (f₀.above.length + 15))
        (CalledOnce o kernelDs f₀ (.address addr) (handlerArgs code)))) n
      (Held NoCalls fun f c => f = f₀ ∧ Interrupted f [addr, code] top c)
      (goto .errorCode (listing nrSyscalls kernelDs o.address)) := by
  obtain ⟨rest, hcode⟩ := goto_errorCode nrSyscalls kernelDs o.address
  let B := CalledOnce o kernelDs f₀ (.address addr) (handlerArgs code)
  have hin : Settled NoCalls fun f c => f = f₀ ∧ Interrupted f [addr, code] top c :=
    ⟨fun _ _ _ _ h => ⟨h.1, h.2.reg, h.2.stack, h.2.top⟩, quiet_noCalls⟩
  have hquiet : Quiet fun f _ _ calls => B calls f := fun _ _ _ _ h => h
  rw [hcode]
  refine holds_label hin (holds_block (fun f c =>
    Calling kernelDs (currentAt top (f₀.above.length + 15)) f₀ (handlerArgs code) f c ∧
      c.core.reg .edi = addr) rfl hin ?_ ?_)
  · rintro f c ⟨hf, h⟩
    exact calling_errorFrame horig addr hf h
  refine holds_callReg (fun f _ _ calls => B calls f)
    (Called kernelDs (currentAt top (f₀.above.length + 15)) 2)
    ⟨fun _ _ mem hi h => ⟨(settled_calling quiet_noCalls).cpu _ _ mem hi h.1, h.2⟩,
      quiet_noCalls⟩ ?_ ?_
  · rintro f c calls ⟨h, hedi⟩ rfl
    rw [hedi]
    exact h.call_address hconv fun _ => rfl
  refine holds_step (fun f _ _ calls => B calls f)
    (AtFrame kernelDs (currentAt top (f₀.above.length + 15))) (fun _ => rfl)
    (settled_called hquiet 2) ?_ (holds_jmp (settled_atFrame hquiet) (holds_retFromException hconv))
  intro f c calls h hB
  exact ⟨h.drop rfl, hB⟩

theorem holds_trap (hconv : Convention o) (horig : f₀.origEax = -1) (e : Exception) :
    (machine nrSyscalls kernelDs o).Holds
      (Exits o (Finished o kernelDs (currentAt top (f₀.above.length + 15))
        (CalledOnce o kernelDs f₀ (.address (o.address (.handler e)))
          (handlerArgs (handed e code))))) n
      (Held NoCalls fun f c => f = f₀ ∧ Interrupted f (errorWords e code) top c)
      (goto (.trap e) (listing nrSyscalls kernelDs o.address)) := by
  have hin : Settled NoCalls fun f c => f = f₀ ∧ Interrupted f (errorWords e code) top c :=
    ⟨fun _ _ _ _ h => ⟨h.1, h.2.reg, h.2.stack, h.2.top⟩, quiet_noCalls⟩
  have hout : Settled NoCalls fun f c =>
      f = f₀ ∧ Interrupted f [o.address (.handler e), handed e code] top c :=
    ⟨fun _ _ _ _ h => ⟨h.1, h.2.reg, h.2.stack, h.2.top⟩, quiet_noCalls⟩
  have hcode : (machine nrSyscalls kernelDs o).Holds
      (Exits o (Finished o kernelDs (currentAt top (f₀.above.length + 15))
        (CalledOnce o kernelDs f₀ (.address (o.address (.handler e)))
          (handlerArgs (handed e code))))) n
      (Held NoCalls fun f c =>
        f = f₀ ∧ Interrupted f [o.address (.handler e), handed e code] top c)
      (goto .errorCode (listing nrSyscalls kernelDs o.address)) :=
    holds_errorCode hconv horig (o.address (.handler e))
  have hstraight : (trapPushes o.address (pushesCode e) e).all TrapInstr.isStraight = true := by
    cases h : pushesCode e <;> rfl
  have hpushed : ∀ f c, f = f₀ ∧ Interrupted f (errorWords e code) top c → f = f₀ ∧
      Interrupted f [o.address (.handler e), handed e code] top
        ((trapPushes o.address (pushesCode e) e).foldl Cpu.step c) := by
    rintro f ⟨⟨reg, stack, top', mem, flags⟩, eflags, intr, cr0, ss⟩ ⟨hf, hreg, hstack, htop⟩
    cases hstack
    refine ⟨hf, ?_⟩
    unfold handed errorWords
    cases h : pushesCode e <;> exact ⟨hreg, rfl, htop⟩
  rcases goto_trap nrSyscalls kernelDs o.address e
    with hgoto | ⟨rest, hgoto⟩
  · rw [hgoto]
    exact holds_label hin (holds_block _ hstraight hin hpushed hcode)
  · rw [hgoto]
    exact holds_label hin (holds_block _ hstraight hin hpushed (holds_jmp hout hcode))

end Exceptions

/-- An exception, from its entry to `iret`, with interrupts wherever they are on: the handler is
called once, with the saved frame and the error code, and what it leaves is reloaded; to user
code only after the scheduler and the signals. -/
theorem exception_returns (nrSyscalls kernelDs top code : UInt32) (o : Outside Symbol)
    (hconv : Convention o) (e : Exception) (f : Frame) (horig : f.origEax = -1) (c : Cpu)
    (hentry : Interrupted f (errorWords e code) top c)
    (ticks : List (Option (UInt32 → UInt8))) (i : Instr)
    (hleave : (machine nrSyscalls kernelDs o).Leaves ((machine nrSyscalls kernelDs o).run
      ⟨goto (.trap e) (listing nrSyscalls kernelDs o.address), ⟨c, []⟩⟩ ticks) i) :
    Exits o (Finished o kernelDs (currentAt top (f.above.length + 15))
        (CalledOnce o kernelDs f (.address (o.address (.handler e)))
          (handlerArgs (handed e code)))) i
      ((machine nrSyscalls kernelDs o).run
        ⟨goto (.trap e) (listing nrSyscalls kernelDs o.address), ⟨c, []⟩⟩ ticks).state :=
  holds_trap hconv horig e ⟨c, []⟩ ⟨f, ⟨rfl, hentry⟩, rfl⟩ ticks (Nat.le_refl _) i hleave

def faultFrame : Frame := { getpidFrame with origEax := -1 }

theorem exception_returns_pageFault :
    Exits idleOutside (Finished idleOutside 0x18 (currentAt 0xc0002000 17)
        (CalledOnce idleOutside 0x18 faultFrame (.address 0xc0100000) (handlerArgs 6)))
      (.iret (.six .restoreAll))
      ((machine 270 0x18 idleOutside).run
        ⟨goto (.trap .pageFault) (listing 270 0x18 idleOutside.address),
          ⟨faultFrame.enter [6], []⟩⟩ (List.replicate 60 none)).state :=
  exception_returns 270 0x18 0xc0002000 6 idleOutside convention_idleOutside .pageFault faultFrame
    rfl (faultFrame.enter [6]) (faultFrame.interrupted_enter [6]) (List.replicate 60 none)
    (.iret (.six .restoreAll)) (leaves_of_fixupOf (by decide +kernel) rfl)

section OtherTraps

variable {nrSyscalls kernelDs top : UInt32} {o : Outside Symbol} {n : ℕ} {f₀ : Frame}

theorem settled_interrupted (f₀ : Frame) (pushed : List UInt32) (top : UInt32) :
    Settled NoCalls fun f c => f = f₀ ∧ Interrupted f pushed top c :=
  ⟨fun _ _ _ _ h => ⟨h.1, h.2.reg, h.2.stack, h.2.top⟩, quiet_noCalls⟩

theorem goto_nmi (nrSyscalls kernelDs : UInt32) (address : Symbol → UInt32) :
    goto .nmi (listing nrSyscalls kernelDs address) = .label .nmi ::
      ((nmiFrame kernelDs).map .instr ++ .instr (.core (.call .doNmi)) :: .instr (.addlEsp 8) ::
        (restoreRegs.map .instr ++ goto (.one .nmi) (listing nrSyscalls kernelDs address))) := by
  rw [goto_next nrSyscalls kernelDs address (k := 25) rfl rfl]
  simp only [List.map_append, List.append_assoc, List.map_cons, List.cons_append,
    List.nil_append]

/-- `do_nmi(regs, 0)`, and straight back, to user code too. -/
theorem holds_nmi (hconv : Convention o) (horig : f₀.origEax = f₀.eax) :
    (machine nrSyscalls kernelDs o).Holds
      (Exits o fun f _ _ calls => CalledOnce o kernelDs f₀ (named .doNmi) (handlerArgs 0) calls f) n
      (Held NoCalls fun f c => f = f₀ ∧ Interrupted f [] top c)
      (goto .nmi (listing nrSyscalls kernelDs o.address)) := by
  have hin := settled_interrupted f₀ [] top
  let Nmi : Beyond := fun f _ _ calls =>
    CalledOnce o kernelDs f₀ (named .doNmi) (handlerArgs 0) calls f
  have hquiet : Quiet Nmi := fun _ _ _ _ h => h
  rw [goto_nmi]
  refine holds_label hin (holds_block (Calling kernelDs f₀.ebx f₀ (handlerArgs 0)) rfl hin ?_ ?_)
  · rintro f ⟨⟨reg, stack, top', mem, flags⟩, eflags, intr, cr0, ss⟩ ⟨rfl, hreg, hstack, htop⟩
    cases hreg
    cases hstack
    cases htop
    refine ⟨rfl, ?_, rfl, rfl, rfl⟩
    change (top' - 4 * UInt32.ofNat (f.above.length + 13)) :: 0 ::
        ({ f with origEax := f.eax } : Frame).words =
      (top' - 4 * UInt32.ofNat (f.above.length + 15) + 8) :: 0 :: f.words
    rw [Frame.withOrigEax horig, esp_add_eight top' (f.above.length + 13)]
  refine holds_named (g := .doNmi) hconv (fun _ => rfl) nofun (settled_calling quiet_noCalls)
    (fun _ _ h => h) ?_
  refine holds_step Nmi (fun f c => c.core.stack = f.words) (fun _ => rfl)
    (settled_called hquiet 2) ?_ (holds_restoreAll .nmi hconv.null hquiet)
  intro f c calls h hB
  exact ⟨(h.drop rfl).stack, hB⟩

/-- The handler of `device_not_available`, as the EM bit of `%cr0` has it. -/
def fpuTarget (cr0 : UInt32) : Symbol := if cr0 &&& 4 = 0 then .mathStateRestore else .mathEmulate

def fpuArgs (cr0 : UInt32) : List UInt32 := if cr0 &&& 4 = 0 then [] else [0]

theorem goto_deviceNotAvailable (nrSyscalls kernelDs : UInt32) (address : Symbol → UInt32) :
    ∃ rest, goto .deviceNotAvailable (listing nrSyscalls kernelDs address) =
      .label .deviceNotAvailable :: ((fpuFrame kernelDs).map .instr ++
        .instr (.core (.jne .deviceNotAvailableEmulate)) ::
        .instr (.core (.call .mathStateRestore)) :: .instr (.core (.jmp .retFromException)) ::
        rest) :=
  goto_block nrSyscalls kernelDs address (k := 22) rfl

theorem goto_deviceNotAvailableEmulate (nrSyscalls kernelDs : UInt32)
    (address : Symbol → UInt32) :
    ∃ rest, goto .deviceNotAvailableEmulate (listing nrSyscalls kernelDs address) =
      .label .deviceNotAvailableEmulate :: .instr (.core (.pushl (.imm 0))) ::
        .instr (.core (.call .mathEmulate)) :: .instr (.addlEsp 4) ::
        .instr (.core (.jmp .retFromException)) :: rest :=
  goto_block nrSyscalls kernelDs address (k := 23) rfl

theorem holds_deviceNotAvailable (hconv : Convention o) (horig : f₀.origEax = -1) (cr0 : UInt32) :
    (machine nrSyscalls kernelDs o).Holds
      (Exits o (Finished o kernelDs (currentAt top (f₀.above.length + 13))
        (CalledOnce o kernelDs f₀ (named (fpuTarget cr0)) fun _ => fpuArgs cr0))) n
      (Held NoCalls fun f c => (f = f₀ ∧ Interrupted f [] top c) ∧ c.cr0 = cr0)
      (goto .deviceNotAvailable (listing nrSyscalls kernelDs o.address)) := by
  obtain ⟨rest, hcode⟩ := goto_deviceNotAvailable nrSyscalls kernelDs o.address
  obtain ⟨rest', hemulate⟩ := goto_deviceNotAvailableEmulate nrSyscalls kernelDs o.address
  let t := currentAt top (f₀.above.length + 13)
  let B : List (TrapCall Symbol) → Frame → Prop :=
    CalledOnce o kernelDs f₀ (named (fpuTarget cr0)) fun _ => fpuArgs cr0
  have hin : Settled NoCalls fun f c => (f = f₀ ∧ Interrupted f [] top c) ∧ c.cr0 = cr0 :=
    ⟨fun _ _ mem hi h => ⟨(settled_interrupted f₀ [] top).cpu _ _ mem hi h.1, h.2⟩, quiet_noCalls⟩
  have hquiet : Quiet fun f _ _ calls => B calls f := fun _ _ _ _ h => h
  have hback : (machine nrSyscalls kernelDs o).Holds (Exits o (Finished o kernelDs t B)) n
      (Held (fun f _ _ calls => B calls f) (AtFrame kernelDs t))
      (goto .retFromException (listing nrSyscalls kernelDs o.address)) :=
    holds_retFromException hconv
  rw [hcode]
  refine holds_label hin (holds_block (fun f c => Calling kernelDs t f₀ (fun _ => []) f c ∧
    c.core.flags.zf = decide (cr0 &&& 4 = 0)) rfl hin ?_ ?_)
  · rintro f ⟨⟨reg, stack, top', mem, flags⟩, eflags, intr, cr0', ss⟩
      ⟨⟨rfl, hreg, hstack, htop⟩, hcr0⟩
    cases hreg
    cases hstack
    cases htop
    cases hcr0
    refine ⟨⟨rfl, ?_, rfl, rfl, rfl⟩, rfl⟩
    change ({ f with origEax := -1 } : Frame).words = f.words
    rw [Frame.withOrigEax horig]
  refine holds_branch NoCalls
    (fun f c => Calling kernelDs t f₀ (fun _ => []) f c ∧ cr0 &&& 4 = 0) NoCalls
    (fun f c => Calling kernelDs t f₀ (fun _ => []) f c ∧ ¬ cr0 &&& 4 = 0)
    (fun c => !c.core.flags.zf) (fun _ => rfl)
    ⟨fun _ _ mem hi h => ⟨(settled_calling quiet_noCalls).cpu _ _ mem hi h.1, h.2⟩, quiet_noCalls⟩
    ?_ ?_ ?_ ?_
  · rintro f c calls ⟨h, hzf⟩ hcalls htaken
    rw [hzf, Bool.not_eq_false', decide_eq_true_eq] at htaken
    exact ⟨⟨h, htaken⟩, hcalls⟩
  · rintro f c calls ⟨h, hzf⟩ hcalls htaken
    rw [hzf, Bool.not_eq_true', decide_eq_false_iff_not] at htaken
    exact ⟨⟨h, htaken⟩, hcalls⟩
  · refine holds_of_pure fun hem => ?_
    have hB : B = CalledOnce o kernelDs f₀ (named .mathStateRestore) fun _ => [] := by
      simp only [B, fpuTarget, fpuArgs, if_pos hem]
    refine holds_named (g := .mathStateRestore) hconv (fun _ => rfl) nofun
      (settled_calling quiet_noCalls) (fun _ _ h => h) ?_
    rw [← hB]
    exact holds_weaken (fun f c calls h hcalls => ⟨h.atFrame, hcalls⟩)
      (holds_jmp (settled_atFrame hquiet) hback)
  · refine holds_of_pure fun hem => ?_
    have hB : B = CalledOnce o kernelDs f₀ (named .mathEmulate) fun _ => [0] := by
      simp only [B, fpuTarget, fpuArgs, if_neg hem]
    rw [hemulate]
    refine holds_label (settled_calling quiet_noCalls) (holds_step NoCalls
      (Calling kernelDs t f₀ fun _ => [0]) (fun _ => rfl) (settled_calling quiet_noCalls) ?_ ?_)
    · intro f c calls h hcalls
      exact ⟨⟨h.frame, congrArg (0 :: ·) h.stack, h.current, h.ds, h.es⟩, hcalls⟩
    refine holds_named (g := .mathEmulate) hconv (fun _ => rfl) nofun
      (settled_calling quiet_noCalls) (fun _ _ h => h) ?_
    rw [← hB]
    refine holds_step (fun f _ _ calls => B calls f) (AtFrame kernelDs t) (fun _ => rfl)
      (settled_called hquiet 1) ?_ (holds_jmp (settled_atFrame hquiet) hback)
    intro f c calls h hcalls
    exact ⟨h.drop rfl, hcalls⟩

/-- The CPU as it enters a call gate, which pushes no `EFLAGS`. -/
structure Gated (f : Frame) (top : UInt32) (c : Cpu) : Prop where
  reg : c.core.reg = f.reg
  stack : c.core.stack = f.eip :: f.cs :: f.above
  eflags : c.eflagsWord = f.eflags
  top : c.core.top = top

def gateArgs (number esp : UInt32) : List UInt32 := [number, esp + 8]

theorem esp_add_four (top : UInt32) (n : ℕ) :
    top - 4 * UInt32.ofNat (n + 1) + 4 = top - 4 * UInt32.ofNat n := by
  rw [UInt32.ofNat_add]
  grind

theorem esp_push (s : State) (w : UInt32) : (s.push w).esp + 4 = s.esp :=
  esp_add_four s.top s.stack.length

/-- `current`, found by masking the pointer to a frame of `n` words. -/
def gateCurrent (top : UInt32) (n : ℕ) : UInt32 := (top - 4 * UInt32.ofNat n) &&& -8192

theorem calling_lcallFrame (horig : f₀.origEax = f₀.eax) {f : Frame} {c : Cpu} (hf : f = f₀)
    (h : Gated f top c) :
    Calling kernelDs (gateCurrent top (f₀.above.length + 13)) f₀
      (fun esp => [esp + 4]) f ((lcallFrame kernelDs).foldl Cpu.step c) := by
  subst hf
  obtain ⟨⟨reg, stack, top', mem, flags⟩, eflags, intr, cr0, ss⟩ := c
  obtain ⟨hreg, hstack, heflags, htop⟩ := h
  change reg = f.reg at hreg
  change stack = f.eip :: f.cs :: f.above at hstack
  change top' = top at htop
  subst hreg hstack htop
  refine ⟨rfl, ?_, rfl, rfl, rfl⟩
  change (top' - 4 * UInt32.ofNat (f.above.length + 13)) ::
      ({ f with
          origEax := f.eax
          eflags := (⟨⟨f.reg, _, top', mem, flags⟩, eflags, intr, cr0, ss⟩ : Cpu).eflagsWord } :
        Frame).words =
    (top' - 4 * UInt32.ofNat (f.above.length + 14) + 4) :: f.words
  rw [esp_add_four top' (f.above.length + 13), heflags]
  exact congrArg (fun g : Frame => _ :: g.words) (Frame.withOrigEax horig)

/-- The call gates, with the number each hands to its handler. -/
def gates : List (Label × UInt32) := [(.lcall7, 0x7), (.lcall27, 0x27)]

theorem goto_lcall (nrSyscalls kernelDs : UInt32) (address : Symbol → UInt32) {l : Label}
    {number : UInt32} (hgate : (l, number) ∈ gates) :
    ∃ rest, goto l (listing nrSyscalls kernelDs address) =
      .label l :: ((lcallFrame kernelDs).map .instr ++ .instr (.movlMem execDomain .ebx .edx) ::
        .instr (.movlMem 4 .edx .edx) :: .instr (.core (.pushl (.imm number))) ::
        .instr (.callReg .edx) :: .instr (.addlEsp 4) :: .instr (.core (.popl .eax)) ::
        .instr (.core (.jmp (.path .retFromSysCall))) :: rest) := by
  simp only [gates, List.mem_cons, Prod.mk.injEq, List.not_mem_nil, or_false] at hgate
  rcases hgate with ⟨rfl, rfl⟩ | ⟨rfl, rfl⟩
  · exact goto_block nrSyscalls kernelDs address (k := 0) rfl
  · exact goto_block nrSyscalls kernelDs address (k := 1) rfl

/-- The handler in the execution domain of the task at `t`: the domain is loaded from `mem`, and
then the handler from `mem'`. -/
def lcallHandler (t : UInt32) (mem mem' : UInt32 → UInt8) : UInt32 :=
  wordAt mem' (wordAt mem (t + execDomain) + 4)

/-- The one call of a call gate is to the handler in the execution domain of the task at `t`, as
a memory of `S` and one of `S'` have it. -/
def GateCalled (o : Outside Symbol) (kernelDs t number : UInt32) (S S' : (UInt32 → UInt8) → Prop)
    (f₀ : Frame) (calls : List (TrapCall Symbol)) (f : Frame) : Prop :=
  ∃ mem mem', S mem ∧ S' mem' ∧
    CalledOnce o kernelDs f₀ (.address (lcallHandler t mem mem')) (gateArgs number) calls f

/-- In front of a call by `%edx`, or of a load that goes through it. -/
structure AtHandler (kernelDs t : UInt32) (f₀ : Frame) (args : UInt32 → List UInt32) (addr : UInt32)
    (f : Frame) (c : Cpu) : Prop extends Calling kernelDs t f₀ args f c where
  edx : c.core.reg .edx = addr

theorem settled_atHandler (kernelDs t : UInt32) (f₀ : Frame) (args : UInt32 → List UInt32)
    (addr : UInt32) : Settled NoCalls (AtHandler kernelDs t f₀ args addr) :=
  ⟨fun _ _ _ _ h => ⟨⟨h.frame, h.stack, h.current, h.ds, h.es⟩, h.edx⟩, quiet_noCalls⟩

theorem holds_callGate (hconv : Convention o) (t number addr : UInt32) :
    (machine nrSyscalls kernelDs o).Holds
      (Exits o (Since o kernelDs (CalledOnce o kernelDs f₀ (.address addr) (gateArgs number))
        (ReturnCalls t))) n
      (Held NoCalls (AtHandler kernelDs t f₀ (fun esp => [esp + 4]) addr))
      (.instr (.core (.pushl (.imm number))) :: .instr (.callReg .edx) :: .instr (.addlEsp 4) ::
        .instr (.core (.popl .eax)) :: .instr (.core (.jmp (.path .retFromSysCall))) :: rest) := by
  let G : Beyond := fun f _ _ calls =>
    CalledOnce o kernelDs f₀ (.address addr) (gateArgs number) calls f
  have hquiet : Quiet G := fun _ _ _ _ h => h
  refine holds_step NoCalls (AtHandler kernelDs t f₀ (gateArgs number) addr) (fun _ => rfl)
    (settled_atHandler _ _ _ _ _) ?_ ?_
  · intro f c calls h hcalls
    refine ⟨⟨⟨h.frame, ?_, h.current, h.ds, h.es⟩, h.edx⟩, hcalls⟩
    change number :: c.core.stack = number :: ((c.core.push number).esp + 8) :: f.words
    have hesp : (c.core.push number).esp + 8 = c.core.esp + 4 := by
      rw [← esp_push c.core number]
      grind
    rw [hesp]
    exact congrArg (number :: ·) h.stack
  refine holds_callReg G (Called kernelDs t 2) (settled_atHandler _ _ _ _ _) ?_ ?_
  · rintro f c calls h rfl
    rw [h.edx]
    exact h.toCalling.call_address hconv fun _ => rfl
  refine holds_step G (Called kernelDs t 1) (fun _ => rfl) (settled_called hquiet 2) ?_
    (holds_step G (Called kernelDs t 0) (fun _ => rfl) (settled_called hquiet 1) ?_ ?_)
  · rintro f c calls ⟨⟨args, hlen, hstack⟩, hebx, hds, hes⟩ hB
    obtain ⟨a, b, rfl⟩ := List.length_eq_two.1 hlen
    exact ⟨⟨⟨[b], rfl, congrArg (List.drop 1) hstack⟩, hebx, hds, hes⟩, hB⟩
  · intro f c calls h hB
    exact ⟨h.popl, hB⟩
  exact holds_weaken (fun f c calls h hB => ⟨h.atFrame, hB⟩)
    (holds_jmp (settled_atFrame hquiet) (holds_ret hconv))

theorem passes_domain (horig : f₀.origEax = f₀.eax) {l : Label}
    {code : List (Assembly.Line Label Instr)}
    (hcode : goto l (listing nrSyscalls kernelDs o.address) =
      .label l :: ((lcallFrame kernelDs).map .instr ++ .instr (.movlMem execDomain .ebx .edx) ::
        code)) :
    (machine nrSyscalls kernelDs o).Passes (Held NoCalls fun f c => f = f₀ ∧ Gated f top c)
      (goto l (listing nrSyscalls kernelDs o.address))
      (Held NoCalls (Calling kernelDs (gateCurrent top (f₀.above.length + 13)) f₀
        fun esp => [esp + 4])) (.instr (.movlMem execDomain .ebx .edx) :: code) := by
  have hin : Settled NoCalls fun f c => f = f₀ ∧ Gated f top c :=
    ⟨fun _ _ _ _ h => ⟨h.1, h.2.reg, h.2.stack, h.2.eflags, h.2.top⟩, quiet_noCalls⟩
  rw [hcode]
  refine Machine.Passes.label hin.stable (passes_block _ rfl hin ?_
    (Machine.Passes.line (settled_calling quiet_noCalls).stable fun s _ => ⟨_, rfl⟩))
  intro f c h
  exact calling_lcallFrame horig h.1 h.2

/-- A run that leaves takes the two loads, and has the handler in `%edx` behind them. -/
theorem exists_loaded (horig : f₀.origEax = f₀.eax) {l : Label}
    {code : List (Assembly.Line Label Instr)}
    (hcode : goto l (listing nrSyscalls kernelDs o.address) =
      .label l :: ((lcallFrame kernelDs).map .instr ++ .instr (.movlMem execDomain .ebx .edx) ::
        .instr (.movlMem 4 .edx .edx) :: code)) {c : Cpu} (hentry : Gated f₀ top c)
    {ticks : List (Option (UInt32 → UInt8))} {start : Config Label Instr (TrapState Symbol)}
    (hstart : start = ⟨goto l (listing nrSyscalls kernelDs o.address), ⟨c, []⟩⟩)
    (hleave : ∃ i, (machine nrSyscalls kernelDs o).Leaves
      ((machine nrSyscalls kernelDs o).run start ticks) i) :
    ∃ mem mem' s after,
      Found nrSyscalls kernelDs o start ticks (.movlMem execDomain .ebx .edx) mem ∧
      Found nrSyscalls kernelDs o start ticks (.movlMem 4 .edx .edx) mem' ∧
      Held NoCalls (AtHandler kernelDs (gateCurrent top (f₀.above.length + 13)) f₀
        (fun esp => [esp + 4])
        (lcallHandler (gateCurrent top (f₀.above.length + 13)) mem mem')) s ∧
      (machine nrSyscalls kernelDs o).run start ticks =
        (machine nrSyscalls kernelDs o).run ⟨code, s⟩ after := by
  let t : UInt32 := gateCurrent top (f₀.above.length + 13)
  let Loaded : UInt32 → TrapState Symbol → Prop := fun addr =>
    Held NoCalls (AtHandler kernelDs t f₀ (fun esp => [esp + 4]) addr)
  have hentered : Held NoCalls (fun f c => f = f₀ ∧ Gated f top c) (⟨c, []⟩ : TrapState Symbol) :=
    ⟨f₀, ⟨rfl, hentry⟩, rfl⟩
  have hdomain : ∀ s, Held NoCalls (Calling kernelDs t f₀ fun esp => [esp + 4]) s → ∃ s',
      (machine nrSyscalls kernelDs o).step
        ⟨.instr (.movlMem execDomain .ebx .edx) :: .instr (.movlMem 4 .edx .edx) :: code, s⟩ none =
          ⟨.instr (.movlMem 4 .edx .edx) :: code, s'⟩ ∧
        Loaded (wordAt s.cpu.core.mem (t + execDomain)) s' := by
    rintro s ⟨f, h, hcalls⟩
    refine ⟨_, rfl, f, ⟨⟨h.frame, h.stack, h.current, h.ds, h.es⟩, ?_⟩, hcalls⟩
    exact congrArg (fun w => wordAt s.cpu.core.mem (w + execDomain)) h.current
  have hhandler : ∀ w s, Loaded w s → ∃ s',
      (machine nrSyscalls kernelDs o).step ⟨.instr (.movlMem 4 .edx .edx) :: code, s⟩ none =
          ⟨code, s'⟩ ∧
        Loaded (wordAt s.cpu.core.mem (w + 4)) s' := by
    rintro w s ⟨f, h, hcalls⟩
    refine ⟨_, rfl, f, ⟨⟨h.frame, h.stack, h.current, h.ds, h.es⟩, ?_⟩, hcalls⟩
    exact congrArg (fun w => wordAt s.cpu.core.mem (w + 4)) h.edx
  have hsecond : ∀ w, (machine nrSyscalls kernelDs o).Passes (Loaded w)
      (.instr (.movlMem 4 .edx .edx) :: code) (Loaded w)
      (.instr (.movlMem 4 .edx .edx) :: code) := fun w =>
    Machine.Passes.line (settled_atHandler kernelDs t f₀ _ w).stable fun s _ => ⟨_, rfl⟩
  subst hstart
  obtain ⟨before, after, s₁, s₂, rfl, hrun₁, ⟨_, -, hcalls₁⟩, hs₂, hgo₁⟩ :=
    (passes_domain horig hcode).taken hdomain hentered hleave
  rw [hgo₁] at hleave
  obtain ⟨before', after', s₃, s₄, rfl, hrun₃, ⟨_, -, hcalls₃⟩, hs₄, hgo₃⟩ :=
    (hsecond _).taken (hhandler _) hs₂ hleave
  have hrun : (machine nrSyscalls kernelDs o).run
      ⟨goto l (listing nrSyscalls kernelDs o.address), ⟨c, []⟩⟩ (before ++ none :: before') =
        ⟨.instr (.movlMem 4 .edx .edx) :: code, s₃⟩ := (hgo₁ before').trans hrun₃
  refine ⟨s₁.cpu.core.mem, s₃.cpu.core.mem, s₄, after',
    ⟨s₁, Machine.executes_of_run hrun₁ _, hcalls₁, rfl⟩, ⟨s₃, ?_, hcalls₃, rfl⟩, hs₄,
    (hgo₁ _).trans (hgo₃ _)⟩
  have hexecutes := Machine.executes_of_run hrun after'
  rwa [List.append_assoc, List.cons_append] at hexecutes

end OtherTraps

/-- An NMI calls `do_nmi` once and reloads what it leaves, without a look at the scheduler. -/
theorem nmi_returns (nrSyscalls kernelDs top : UInt32) (o : Outside Symbol) (hconv : Convention o)
    (f : Frame) (horig : f.origEax = f.eax) (c : Cpu) (hentry : Interrupted f [] top c)
    (ticks : List (Option (UInt32 → UInt8))) (i : Instr)
    (hleave : (machine nrSyscalls kernelDs o).Leaves ((machine nrSyscalls kernelDs o).run
      ⟨goto .nmi (listing nrSyscalls kernelDs o.address), ⟨c, []⟩⟩ ticks) i) :
    Exits o (fun g _ _ calls => CalledOnce o kernelDs f (named .doNmi) (handlerArgs 0) calls g) i
      ((machine nrSyscalls kernelDs o).run
        ⟨goto .nmi (listing nrSyscalls kernelDs o.address), ⟨c, []⟩⟩ ticks).state :=
  holds_nmi hconv horig ⟨c, []⟩ ⟨f, ⟨rfl, hentry⟩, rfl⟩ ticks (Nat.le_refl _) i hleave

theorem nmi_returns_getpid :
    Exits idleOutside (fun g _ _ calls =>
        CalledOnce idleOutside 0x18 getpidFrame (named .doNmi) (handlerArgs 0) calls g)
      (.iret (.six .nmi))
      ((machine 270 0x18 idleOutside).run
        ⟨goto .nmi (listing 270 0x18 idleOutside.address), ⟨getpidFrame.enter [], []⟩⟩
        (List.replicate 40 none)).state :=
  nmi_returns 270 0x18 0xc0002000 idleOutside convention_idleOutside getpidFrame rfl
    (getpidFrame.enter []) (getpidFrame.interrupted_enter []) (List.replicate 40 none)
    (.iret (.six .nmi)) (leaves_of_fixupOf (by decide +kernel) rfl)

/-- `device_not_available` calls the one or the other function, as the EM bit of `%cr0` has it,
and comes back as the other exceptions do. -/
theorem device_not_available_returns (nrSyscalls kernelDs top : UInt32) (o : Outside Symbol)
    (hconv : Convention o) (f : Frame) (horig : f.origEax = -1) (c : Cpu)
    (hentry : Interrupted f [] top c) (ticks : List (Option (UInt32 → UInt8))) (i : Instr)
    (hleave : (machine nrSyscalls kernelDs o).Leaves ((machine nrSyscalls kernelDs o).run
      ⟨goto .deviceNotAvailable (listing nrSyscalls kernelDs o.address), ⟨c, []⟩⟩ ticks) i) :
    Exits o (Finished o kernelDs (currentAt top (f.above.length + 13))
        (CalledOnce o kernelDs f (named (fpuTarget c.cr0)) fun _ => fpuArgs c.cr0)) i
      ((machine nrSyscalls kernelDs o).run
        ⟨goto .deviceNotAvailable (listing nrSyscalls kernelDs o.address), ⟨c, []⟩⟩ ticks).state :=
  holds_deviceNotAvailable hconv horig c.cr0 ⟨c, []⟩ ⟨f, ⟨⟨rfl, hentry⟩, rfl⟩, rfl⟩ ticks
    (Nat.le_refl _) i hleave

theorem device_not_available_returns_fault :
    Exits idleOutside (Finished idleOutside 0x18 (currentAt 0xc0002000 15)
        (CalledOnce idleOutside 0x18 faultFrame (named .mathStateRestore) fun _ => []))
      (.iret (.six .restoreAll))
      ((machine 270 0x18 idleOutside).run
        ⟨goto .deviceNotAvailable (listing 270 0x18 idleOutside.address),
          ⟨faultFrame.enter [], []⟩⟩ (List.replicate 50 none)).state :=
  device_not_available_returns 270 0x18 0xc0002000 idleOutside convention_idleOutside faultFrame rfl
    (faultFrame.enter []) (faultFrame.interrupted_enter []) (List.replicate 50 none)
    (.iret (.six .restoreAll)) (leaves_of_fixupOf (by decide +kernel) rfl)

/-- A call gate: the frame is put in the order of the other traps before the handler of the
execution domain sees it, and is reloaded in that order. The handler is the one that the two loads
of the gate find in memory. -/
theorem gate_returns (nrSyscalls kernelDs top : UInt32) (o : Outside Symbol)
    (hconv : Convention o) (l : Label) (number : UInt32) (hgate : (l, number) ∈ gates) (f : Frame)
    (horig : f.origEax = f.eax) (c : Cpu) (hentry : Gated f top c)
    (ticks : List (Option (UInt32 → UInt8))) (i : Instr)
    (hleave : (machine nrSyscalls kernelDs o).Leaves ((machine nrSyscalls kernelDs o).run
      ⟨goto l (listing nrSyscalls kernelDs o.address), ⟨c, []⟩⟩ ticks) i) :
    Exits o (Since o kernelDs
        (GateCalled o kernelDs (gateCurrent top (f.above.length + 13)) number
          (Found nrSyscalls kernelDs o ⟨goto l (listing nrSyscalls kernelDs o.address), ⟨c, []⟩⟩
            ticks (.movlMem execDomain .ebx .edx))
          (Found nrSyscalls kernelDs o ⟨goto l (listing nrSyscalls kernelDs o.address), ⟨c, []⟩⟩
            ticks (.movlMem 4 .edx .edx)) f)
        (ReturnCalls (gateCurrent top (f.above.length + 13)))) i
      ((machine nrSyscalls kernelDs o).run
        ⟨goto l (listing nrSyscalls kernelDs o.address), ⟨c, []⟩⟩ ticks).state := by
  obtain ⟨rest, hcode⟩ := goto_lcall nrSyscalls kernelDs o.address hgate
  obtain ⟨mem, mem', s, after, hmem, hmem', hs, hrun⟩ :=
    exists_loaded horig hcode hentry rfl ⟨i, hleave⟩
  rw [hrun] at hleave ⊢
  refine Exits.mono (Since.mono ?_) i _
    (holds_callGate hconv _ number _ s hs after (Nat.le_refl _) i hleave)
  intro calls g hcalled
  exact ⟨mem, mem', hmem, hmem', hcalled⟩

def gateFrame : Frame := { getpidFrame with eflags := 0 }

/-- The execution domain of the task lies at `0xc0200000`, its handler at `0xc0100000`. -/
def domainMem (a : UInt32) : UInt8 :=
  if a = 0xc0000012 then 0x20
  else if a = 0xc0200006 then 0x10
  else if a = 0xc0000013 ∨ a = 0xc0200007 then 0xc0
  else 0

example : lcallHandler (gateCurrent 0xc0002000 15) domainMem domainMem = 0xc0100000 := by decide

def gateCpu : Cpu :=
  ⟨⟨gateFrame.reg, [0x08048000, 0x23, 0xbffff000, 0x2b], 0xc0002000, domainMem, ⟨false, false⟩⟩,
    0, false, 0, 0x18⟩

theorem gate_returns_lcall27 :
    Exits idleOutside (Since idleOutside 0x18
        (GateCalled idleOutside 0x18 (gateCurrent 0xc0002000 15) 0x27
          (Found 270 0x18 idleOutside
            ⟨goto .lcall27 (listing 270 0x18 idleOutside.address), ⟨gateCpu, []⟩⟩
            (List.replicate 60 none) (.movlMem execDomain .ebx .edx))
          (Found 270 0x18 idleOutside
            ⟨goto .lcall27 (listing 270 0x18 idleOutside.address), ⟨gateCpu, []⟩⟩
            (List.replicate 60 none) (.movlMem 4 .edx .edx)) gateFrame)
        (ReturnCalls (gateCurrent 0xc0002000 15)))
      (.iret (.six .restoreAll))
      ((machine 270 0x18 idleOutside).run
        ⟨goto .lcall27 (listing 270 0x18 idleOutside.address), ⟨gateCpu, []⟩⟩
        (List.replicate 60 none)).state :=
  gate_returns 270 0x18 0xc0002000 idleOutside convention_idleOutside .lcall27 0x27
    (List.mem_cons_of_mem _ List.mem_cons_self) gateFrame rfl gateCpu ⟨rfl, rfl, rfl, rfl⟩
    (List.replicate 60 none) (.iret (.six .restoreAll)) (leaves_of_fixupOf (by decide +kernel) rfl)

end Entry
