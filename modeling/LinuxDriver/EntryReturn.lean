import LinuxDriver.EntryFrame

/-!
# The way back from a trap

`ret_from_sys_call` looks for work with interrupts off, and `RESTORE_ALL` reloads the frame
and ends in `iret`. Whatever calls are made on the way, with whatever interrupts between, the
frame that is reloaded is the one that the last call left.
-/

open I386 Assembly

namespace Entry

section Labels

variable (nrSyscalls kernelDs : UInt32) (address : Symbol → UInt32) {l l' : Label}
  {is is' : List Instr}

theorem labels_blocks : (blocks nrSyscalls kernelDs address).map Prod.fst =
    [.lcall7, .lcall27, .retFromFork, .path .systemCall, .path .retFromSysCall, .restoreAll,
      .one .restoreAll, .two .restoreAll, .three .restoreAll, .signalReturn, .v86SignalReturn,
      .path .auditsys, .path .tracesys, .path .tracesysExit, .path .badsys, .retFromIntr,
      .retFromException, .reschedule, .trap .divideError, .errorCode, .trap .coprocessorError,
      .trap .simdCoprocessorError, .deviceNotAvailable, .deviceNotAvailableEmulate, .trap .debug,
      .nmi, .one .nmi, .two .nmi, .three .nmi, .trap .int3, .trap .overflow, .trap .bounds,
      .trap .invalidOp, .trap .coprocessorSegmentOverrun, .trap .doubleFault, .trap .invalidTSS,
      .trap .segmentNotPresent, .trap .stackSegment, .trap .generalProtection,
      .trap .alignmentCheck, .trap .pageFault, .trap .machineCheck, .trap .spuriousInterruptBug,
      .four .restoreAll, .five .restoreAll, .six .restoreAll, .four .nmi, .five .nmi,
      .six .nmi] := rfl

theorem nodup_labels : ((blocks nrSyscalls kernelDs address).map Prod.fst).Nodup := by
  rw [labels_blocks nrSyscalls kernelDs address]
  decide

theorem goto_block {k : ℕ} (h : (blocks nrSyscalls kernelDs address)[k]? = some (l, is)) :
    ∃ rest, goto l (listing nrSyscalls kernelDs address) =
      .label l :: (is.map .instr ++ rest) :=
  goto_lines_of_mem (nodup_labels nrSyscalls kernelDs address) (List.mem_of_getElem? h)

theorem goto_next {k : ℕ} (h : (blocks nrSyscalls kernelDs address)[k]? = some (l, is))
    (h' : (blocks nrSyscalls kernelDs address)[k + 1]? = some (l', is')) :
    goto l (listing nrSyscalls kernelDs address) =
      .label l :: (is.map .instr ++ goto l' (listing nrSyscalls kernelDs address)) :=
  goto_lines_of_next (nodup_labels nrSyscalls kernelDs address) h h'

theorem goto_one (p : Site) : goto (.one p) (listing nrSyscalls kernelDs address) =
    .label (.one p) :: .instr (.poplSeg .ds (.four p)) ::
      goto (.two p) (listing nrSyscalls kernelDs address) := by
  cases p with
  | restoreAll => simpa using goto_next nrSyscalls kernelDs address (k := 6) rfl rfl
  | nmi => simpa using goto_next nrSyscalls kernelDs address (k := 26) rfl rfl

theorem goto_two (p : Site) : goto (.two p) (listing nrSyscalls kernelDs address) =
    .label (.two p) :: .instr (.poplSeg .es (.five p)) :: .instr (.addlEsp 4) ::
      goto (.three p) (listing nrSyscalls kernelDs address) := by
  cases p with
  | restoreAll => simpa using goto_next nrSyscalls kernelDs address (k := 7) rfl rfl
  | nmi => simpa using goto_next nrSyscalls kernelDs address (k := 27) rfl rfl

theorem goto_three (p : Site) : ∃ rest, goto (.three p) (listing nrSyscalls kernelDs address) =
    .label (.three p) :: .instr (.iret (.six p)) :: rest := by
  cases p with
  | restoreAll => exact goto_block nrSyscalls kernelDs address (k := 8) rfl
  | nmi => exact goto_block nrSyscalls kernelDs address (k := 28) rfl

theorem goto_retFromSysCall :
    goto (.path .retFromSysCall) (listing nrSyscalls kernelDs address) =
      .label (.path .retFromSysCall) :: .instr .cli :: .instr (.cmplMem 0 needResched .ebx) ::
        .instr (.core (.jne .reschedule)) :: .instr (.cmplMem 0 sigpending .ebx) ::
        .instr (.core (.jne .signalReturn)) ::
        goto .restoreAll (listing nrSyscalls kernelDs address) := by
  simpa using goto_next nrSyscalls kernelDs address (k := 4) rfl rfl

theorem goto_restoreAll : goto .restoreAll (listing nrSyscalls kernelDs address) =
    .label .restoreAll :: (restoreRegs.map .instr ++
      goto (.one .restoreAll) (listing nrSyscalls kernelDs address)) :=
  goto_next nrSyscalls kernelDs address (k := 5) rfl rfl

theorem goto_signalReturn : ∃ rest,
    goto .signalReturn (listing nrSyscalls kernelDs address) =
      .label .signalReturn :: .instr .sti :: .instr (.testl VM_MASK (.frame EFLAGS)) ::
        .instr (.core (.movl .esp (.reg .eax))) :: .instr (.core (.jne .v86SignalReturn)) ::
        .instr (.xorl .edx) :: .instr (.core (.call .doSignal)) ::
        .instr (.core (.jmp .restoreAll)) :: rest :=
  goto_block nrSyscalls kernelDs address (k := 9) rfl

theorem goto_v86SignalReturn : ∃ rest,
    goto .v86SignalReturn (listing nrSyscalls kernelDs address) =
      .label .v86SignalReturn :: .instr (.core (.call .saveV86State)) :: .instr (.movlEsp .eax) ::
        .instr (.xorl .edx) :: .instr (.core (.call .doSignal)) ::
        .instr (.core (.jmp .restoreAll)) :: rest :=
  goto_block nrSyscalls kernelDs address (k := 10) rfl

theorem goto_reschedule : ∃ rest, goto .reschedule (listing nrSyscalls kernelDs address) =
    .label .reschedule :: .instr (.core (.call .schedule)) ::
      .instr (.core (.jmp (.path .retFromSysCall))) :: rest :=
  goto_block nrSyscalls kernelDs address (k := 17) rfl

/-- The instructions of the fixup for an `iret` that faults, but for the last. -/
def killInstrs : List Instr :=
  [.pushlSs, .core (.popl .ds), .pushlSs, .core (.popl .es), .core (.pushl (.imm 11))]

theorem goto_fixup (p : Site) : ∃ rest₁ rest₂ rest₃,
    goto (.four p) (listing nrSyscalls kernelDs address) = .label (.four p) ::
      .instr (.core (.movl (.imm 0) (.frame 0))) :: .instr (.core (.jmp (.one p))) :: rest₁ ∧
    goto (.five p) (listing nrSyscalls kernelDs address) = .label (.five p) ::
      .instr (.core (.movl (.imm 0) (.frame 0))) :: .instr (.core (.jmp (.two p))) :: rest₂ ∧
    goto (.six p) (listing nrSyscalls kernelDs address) = .label (.six p) ::
      (killInstrs.map .instr ++ .instr (.callNoReturn .doExit) :: rest₃) := by
  cases p with
  | restoreAll =>
      obtain ⟨rest₁, h₁⟩ := goto_block nrSyscalls kernelDs address (k := 43) rfl
      obtain ⟨rest₂, h₂⟩ := goto_block nrSyscalls kernelDs address (k := 44) rfl
      obtain ⟨rest₃, h₃⟩ := goto_block nrSyscalls kernelDs address (k := 45) rfl
      exact ⟨rest₁, rest₂, rest₃, h₁, h₂, h₃⟩
  | nmi =>
      obtain ⟨rest₁, h₁⟩ := goto_block nrSyscalls kernelDs address (k := 46) rfl
      obtain ⟨rest₂, h₂⟩ := goto_block nrSyscalls kernelDs address (k := 47) rfl
      obtain ⟨rest₃, h₃⟩ := goto_block nrSyscalls kernelDs address (k := 48) rfl
      exact ⟨rest₁, rest₂, rest₃, h₁, h₂, h₃⟩

end Labels

structure Restored (o : Outside Symbol) (f : Frame) (c : Cpu) : Prop where
  reg : c.core.reg = f.reload o.loads
  stack : c.core.stack = f.eip :: f.cs :: f.eflags :: f.above

/-- The listing is left by `iret`, with the frame reloaded of which `H` holds; or, when `iret`
does not take that frame, for `do_exit(SIGSEGV)`. -/
def Exits (o : Outside Symbol) (H : Beyond) : Instr → TrapState Symbol → Prop
  | .iret _, s => o.returns s.cpu = true ∧
      ∃ f, Restored o f s.cpu ∧ H f s.cpu.intr s.cpu.core.mem s.calls
  | .callNoReturn g, s => g = .doExit ∧
      ∃ f, (∃ c, Restored o f c ∧ o.returns c = false) ∧
        s.cpu.core.stack = 11 :: f.eip :: f.cs :: f.eflags :: f.above ∧
        H f s.cpu.intr s.cpu.core.mem s.calls
  | _, _ => False

section Restore

variable {nrSyscalls kernelDs : UInt32} {o : Outside Symbol} {Q : Instr → TrapState Symbol → Prop}
  {n : ℕ} {H : Beyond} {dst : Reg} {l fix : Label}
  {rest rest' : List (Assembly.Line Label Instr)}

theorem holds_poplSeg {A A' A₂ : Frame → Cpu → Prop} (h : Settled H A)
    (hload : ∀ f c, A f c → o.loads (c.core.frame 0) = true →
      A' f (c.step (.core (.popl dst) : Instr)))
    (hfault : ∀ f c, A f c → o.loads (c.core.frame 0) = false → A₂ f c)
    (hnext : (machine nrSyscalls kernelDs o).Holds Q n (Held H A') rest)
    (hgoto : (machine nrSyscalls kernelDs o).Holds Q n (Held H A₂)
      (goto fix (listing nrSyscalls kernelDs o.address))) :
    (machine nrSyscalls kernelDs o).Holds Q n (Held H A) (.instr (.poplSeg dst fix) :: rest) := by
  refine Machine.Holds.branch h.stable ?_ hnext hgoto
  rintro s ⟨f, hA, hH⟩
  change (∃ s', s.exec o (.poplSeg dst fix) = .next s' ∧ _) ∨
    ∃ s', s.exec o (.poplSeg dst fix) = .jump fix s' ∧ _
  rw [TrapState.exec]
  cases hloads : o.loads (s.cpu.core.frame 0) with
  | true => exact Or.inl ⟨_, if_pos rfl, f, hload f s.cpu hA hloads, hH⟩
  | false => exact Or.inr ⟨s, if_neg Bool.false_ne_true, f, hfault f s.cpu hA hloads, hH⟩

/-- A segment register is popped: a selector that does not load is replaced by 0 in the fixup
and popped again. -/
theorem holds_segment (A' : Frame → Cpu → Prop) {A : (Frame → UInt32) → Frame → Cpu → Prop}
    (w : Frame → UInt32) (hnull : o.loads 0 = true) (hsettled : ∀ w, Settled H (A w))
    (htop : ∀ w f c, A w f c → c.core.frame 0 = w f)
    (hzero : ∀ f c, A w f c → A (fun _ => 0) f (c.step (.core (.movl (.imm 0) (.frame 0)) : Instr)))
    (hpop : ∀ w' f c, A w' f c → w' f = (if o.loads (w f) then w f else 0) →
      A' f (c.step (.core (.popl dst) : Instr)))
    (hcode : goto l (listing nrSyscalls kernelDs o.address) =
      .label l :: .instr (.poplSeg dst fix) :: rest)
    (hfix : goto fix (listing nrSyscalls kernelDs o.address) =
      .label fix :: .instr (.core (.movl (.imm 0) (.frame 0))) :: .instr (.core (.jmp l)) :: rest')
    (hnext : (machine nrSyscalls kernelDs o).Holds Q n (Held H A') rest) :
    (machine nrSyscalls kernelDs o).Holds Q n (Held H (A w))
      (goto l (listing nrSyscalls kernelDs o.address)) := by
  let Z : Frame → Cpu → Prop := fun f c => A (fun _ => 0) f c ∧ o.loads (w f) = false
  let F : Frame → Cpu → Prop := fun f c => A w f c ∧ o.loads (w f) = false
  have hZ : Settled H Z :=
    ⟨fun f c mem hi h => ⟨(hsettled _).cpu f c mem hi h.1, h.2⟩, (hsettled w).beyond⟩
  have hF : Settled H F :=
    ⟨fun f c mem hi h => ⟨(hsettled w).cpu f c mem hi h.1, h.2⟩, (hsettled w).beyond⟩
  have hnone : (machine nrSyscalls kernelDs o).Holds Q n (Held H fun _ _ => False)
      (goto fix (listing nrSyscalls kernelDs o.address)) :=
    Machine.Holds.false.weaken fun _ ⟨_, hf, _⟩ => hf
  have hagain : (machine nrSyscalls kernelDs o).Holds Q n (Held H Z)
      (goto l (listing nrSyscalls kernelDs o.address)) := by
    rw [hcode]
    refine holds_label hZ (holds_poplSeg hZ ?_ ?_ hnext hnone)
    · rintro f c ⟨hA, hw⟩ -
      refine hpop _ f c hA ?_
      rw [hw, if_neg Bool.false_ne_true]
    · rintro f c ⟨hA, -⟩ hfault
      rw [htop _ f c hA, hnull] at hfault
      cases hfault
  have hfixed : (machine nrSyscalls kernelDs o).Holds Q n (Held H F)
      (goto fix (listing nrSyscalls kernelDs o.address)) := by
    rw [hfix]
    refine holds_label hF (holds_step H Z (fun _ => rfl) hF ?_ (holds_jmp hZ hagain))
    rintro f c calls ⟨hA, hw⟩ hH
    exact ⟨⟨hzero f c hA, hw⟩, hH⟩
  rw [hcode]
  refine holds_label (hsettled w) (holds_poplSeg (hsettled w) ?_ ?_ hnext hfixed)
  · intro f c hA hloads
    rw [htop w f c hA] at hloads
    exact hpop w f c hA (by rw [hloads, if_pos rfl])
  · intro f c hA hfault
    rw [htop w f c hA] at hfault
    exact ⟨hA, hfault⟩

def AtDs (o : Outside Symbol) (w : Frame → UInt32) (f : Frame) (c : Cpu) : Prop :=
  (∀ r, r ≠ .ds → r ≠ .es → c.core.reg r = f.reload o.loads r) ∧
    c.core.stack = w f :: f.es :: f.origEax :: f.eip :: f.cs :: f.eflags :: f.above

def AtEs (o : Outside Symbol) (w : Frame → UInt32) (f : Frame) (c : Cpu) : Prop :=
  (∀ r, r ≠ .es → c.core.reg r = f.reload o.loads r) ∧
    c.core.stack = w f :: f.origEax :: f.eip :: f.cs :: f.eflags :: f.above

/-- An `iret` on frame `f` has faulted; `extra` words have been pushed since. -/
def Faulted (o : Outside Symbol) (extra : List UInt32) (f : Frame) (c : Cpu) : Prop :=
  (∃ c', Restored o f c' ∧ o.returns c' = false) ∧
    c.core.stack = extra ++ f.eip :: f.cs :: f.eflags :: f.above

theorem settled_faulted (hH : Quiet H) (extra : List UInt32) : Settled H (Faulted o extra) :=
  ⟨fun _ _ _ _ h => h, hH⟩

theorem settled_restored (hH : Quiet H) : Settled H (Restored o) :=
  ⟨fun _ _ _ _ h => ⟨h.reg, h.stack⟩, hH⟩

theorem settled_atDs (hH : Quiet H) (w : Frame → UInt32) : Settled H (AtDs o w) :=
  ⟨fun _ _ _ _ h => h, hH⟩

theorem settled_atEs (hH : Quiet H) (w : Frame → UInt32) : Settled H (AtEs o w) :=
  ⟨fun _ _ _ _ h => h, hH⟩

theorem holds_kill (p : Site) (hH : Quiet H) :
    (machine nrSyscalls kernelDs o).Holds (Exits o H) n (Held H (Faulted o []))
      (goto (.six p) (listing nrSyscalls kernelDs o.address)) := by
  obtain ⟨-, -, rest, -, -, hsix⟩ := goto_fixup nrSyscalls kernelDs o.address p
  rw [hsix]
  refine holds_label (settled_faulted hH []) (holds_block (Faulted o [11]) rfl
    (settled_faulted hH []) ?_ (Machine.Holds.leave (settled_faulted hH [11]).stable ?_))
  · rintro f ⟨⟨reg, stack, top, mem, flags⟩, eflags, intr, cr0, ss⟩ ⟨hiret, hstack⟩
    cases hstack
    exact ⟨hiret, rfl⟩
  · rintro s ⟨f, ⟨hiret, hstack⟩, hH⟩
    exact ⟨rfl, rfl, f, hiret, hstack, hH⟩

theorem holds_iret (p : Site) (hH : Quiet H) : (machine nrSyscalls kernelDs o).Holds (Exits o H) n
    (Held H (Restored o)) (goto (.three p) (listing nrSyscalls kernelDs o.address)) := by
  obtain ⟨rest, hthree⟩ := goto_three nrSyscalls kernelDs o.address p
  rw [hthree]
  refine holds_label (settled_restored hH) (Machine.Holds.instr (fun _ => False)
    (settled_restored hH).stable ?_ Machine.Holds.false (Machine.holds_goto (holds_kill p hH)))
  rintro s ⟨f, hf, hbeyond⟩
  let iret : Instr := .iret (.six p)
  change (∃ s', s.exec o iret = .next s' ∧ _) ∨ (∃ l s', s.exec o iret = .jump l s' ∧ _) ∨
    s.exec o iret = .leave ∧ _
  rw [TrapState.exec]
  cases hreturns : o.returns s.cpu with
  | true => exact Or.inr (Or.inr ⟨if_pos rfl, hreturns, f, hf, hbeyond⟩)
  | false =>
      refine Or.inr (Or.inl ⟨.six p, s, if_neg Bool.false_ne_true, rfl, f, ?_, hbeyond⟩)
      exact ⟨⟨s.cpu, hf, hreturns⟩, hf.stack⟩

theorem holds_restoreSegments (p : Site) (hnull : o.loads 0 = true) (hH : Quiet H) :
    (machine nrSyscalls kernelDs o).Holds (Exits o H) n (Held H (AtDs o Frame.ds))
      (goto (.one p) (listing nrSyscalls kernelDs o.address)) := by
  obtain ⟨rest₁, rest₂, -, hfour, hfive, -⟩ := goto_fixup nrSyscalls kernelDs o.address p
  refine holds_segment (AtEs o Frame.es) Frame.ds hnull (settled_atDs hH) ?_ ?_ ?_
    (goto_one nrSyscalls kernelDs o.address p) hfour ?_
  · rintro w f c ⟨-, hstack⟩
    simp [State.frame, hstack]
  · rintro f ⟨⟨reg, stack, top, mem, flags⟩, eflags, intr, cr0, ss⟩ ⟨hreg, hstack⟩
    cases hstack
    exact ⟨hreg, rfl⟩
  · rintro w f ⟨⟨reg, stack, top, mem, flags⟩, eflags, intr, cr0, ss⟩ ⟨hreg, hstack⟩ hw
    cases hstack
    refine ⟨fun r hes => ?_, rfl⟩
    by_cases hds : r = .ds
    · subst hds
      exact hw
    · exact (if_neg hds).trans (hreg r hds hes)
  · refine holds_segment (fun f c => c.core.reg = f.reload o.loads ∧
        c.core.stack = f.origEax :: f.eip :: f.cs :: f.eflags :: f.above)
      Frame.es hnull (settled_atEs hH) ?_ ?_ ?_ (goto_two nrSyscalls kernelDs o.address p)
      hfive ?_
    · rintro w f c ⟨-, hstack⟩
      simp [State.frame, hstack]
    · rintro f ⟨⟨reg, stack, top, mem, flags⟩, eflags, intr, cr0, ss⟩ ⟨hreg, hstack⟩
      cases hstack
      exact ⟨hreg, rfl⟩
    · rintro w f ⟨⟨reg, stack, top, mem, flags⟩, eflags, intr, cr0, ss⟩ ⟨hreg, hstack⟩ hw
      cases hstack
      refine ⟨funext fun r => ?_, rfl⟩
      by_cases hes : r = .es
      · subst hes
        exact hw
      · exact (if_neg hes).trans (hreg r hes)
    · refine holds_step H (Restored o) (fun _ => rfl) ⟨fun _ _ _ _ h => h, hH⟩ ?_
        (holds_iret p hH)
      rintro f ⟨⟨reg, stack, top, mem, flags⟩, eflags, intr, cr0, ss⟩ calls ⟨hreg, hstack⟩ hbeyond
      cases hstack
      exact ⟨⟨hreg, rfl⟩, hbeyond⟩

/-- `RESTORE_ALL` ends in an `iret` with the frame reloaded that lies on the stack. -/
theorem holds_restoreAll (p : Site) (hnull : o.loads 0 = true) (hH : Quiet H) :
    (machine nrSyscalls kernelDs o).Holds (Exits o H) n (Held H fun f c => c.core.stack = f.words)
      (restoreRegs.map .instr ++ goto (.one p) (listing nrSyscalls kernelDs o.address)) := by
  refine holds_block (AtDs o Frame.ds) rfl ⟨fun _ _ _ _ h => h, hH⟩ ?_
    (holds_restoreSegments p hnull hH)
  rintro f ⟨⟨reg, stack, top, mem, flags⟩, eflags, intr, cr0, ss⟩ hstack
  cases hstack
  refine ⟨fun r hds hes => ?_, rfl⟩
  cases r <;> first | rfl | contradiction

end Restore

/-- No work is left for the task at `t`, and none can come. -/
def Idle (t : UInt32) (intr : Bool) (mem : UInt32 → UInt8) : Prop :=
  intr = false ∧ wordAt mem (t + needResched) = 0 ∧ wordAt mem (t + sigpending) = 0

/-- `do_signal(regs, NULL)` on the frame, or on the one that `save_v86_state(regs)` finds. -/
inductive SignalCalls : List (TrapCall Symbol) → Prop
  | signal {c : TrapCall Symbol} (hc : c.callee = named .doSignal)
      (hvm : c.before.core.frame EFLAGS &&& VM_MASK = 0)
      (hregs : c.before.core.reg .eax = c.before.core.esp) (hset : c.before.core.reg .edx = 0) :
      SignalCalls [c]
  | v86 {c d : TrapCall Symbol} (hc : c.callee = named .saveV86State)
      (hvm : c.before.core.frame EFLAGS &&& VM_MASK ≠ 0)
      (hregs : c.before.core.reg .eax = c.before.core.esp)
      (hd : d.callee = named .doSignal) (hset : d.before.core.reg .edx = 0) : SignalCalls [c, d]

/-- The calls that the way back makes: the scheduler any number of times, and the signals
unless there is nothing more to do. -/
def ReturnCalls (t : UInt32) (intr : Bool) (mem : UInt32 → UInt8)
    (calls : List (TrapCall Symbol)) : Prop :=
  ∃ scheds tail, calls = scheds ++ tail ∧ (∀ c ∈ scheds, c.callee = named .schedule) ∧
    (tail = [] ∧ Idle t intr mem ∨ SignalCalls tail)

/-- `B` holds of the calls of the trap itself and of the frame they leave; what has been called
since leaves frame `f` and satisfies `R`. -/
def Since (o : Outside Symbol) (kernelDs : UInt32)
    (B : List (TrapCall Symbol) → Frame → Prop)
    (R : Bool → (UInt32 → UInt8) → List (TrapCall Symbol) → Prop) : Beyond :=
  fun f intr mem calls => ∃ before g after, calls = before ++ after ∧ B before g ∧
    Linked o kernelDs g after f ∧ R intr mem after

def Scheduled (calls : List (TrapCall Symbol)) : Prop := ∀ c ∈ calls, c.callee = named .schedule

/-- Since the trap, only the scheduler has been called. -/
abbrev Looping (o : Outside Symbol) (kernelDs : UInt32)
    (B : List (TrapCall Symbol) → Frame → Prop) : Beyond :=
  Since o kernelDs B fun _ _ => Scheduled

structure AtFrame (kernelDs t : UInt32) (f : Frame) (c : Cpu) : Prop where
  stack : c.core.stack = f.words
  current : c.core.reg .ebx = t
  ds : c.core.reg .ds = kernelDs
  es : c.core.reg .es = kernelDs

section Return

variable {nrSyscalls kernelDs t : UInt32} {o : Outside Symbol} {n : ℕ} {f : Frame} {c : Cpu}
  {B : List (TrapCall Symbol) → Frame → Prop}
  {R : Bool → (UInt32 → UInt8) → List (TrapCall Symbol) → Prop}

theorem AtFrame.withMem (h : AtFrame kernelDs t f c) (mem : UInt32 → UInt8) :
    AtFrame kernelDs t f (c.withMem mem) := ⟨h.stack, h.current, h.ds, h.es⟩

theorem AtFrame.call (h : AtFrame kernelDs t f c) (hconv : Convention o) (target : Target Symbol)
    (hargs : argWords target = 0) :
    ∃ f', AtFrame kernelDs t f' (o.env target c) := by
  obtain ⟨args', f', hstack, hlen⟩ := hconv.stack target c [] f h.stack hargs.symm
  rw [List.length_nil, List.length_eq_zero_iff] at hlen
  subst hlen
  refine ⟨f', hstack, ?_, ?_, ?_⟩
  · rw [hconv.reg _ _ _ (by decide) (by decide) (by decide), h.current]
  · rw [hconv.reg _ _ _ (by decide) (by decide) (by decide), h.ds]
  · rw [hconv.reg _ _ _ (by decide) (by decide) (by decide), h.es]

theorem Since.mono {B B' : List (TrapCall Symbol) → Frame → Prop}
    {R : Bool → (UInt32 → UInt8) → List (TrapCall Symbol) → Prop}
    (hB : ∀ calls f, B calls f → B' calls f) (f : Frame) (intr : Bool) (mem : UInt32 → UInt8)
    (calls : List (TrapCall Symbol)) (h : Since o kernelDs B R f intr mem calls) :
    Since o kernelDs B' R f intr mem calls := by
  obtain ⟨before, g, after, hcalls, hbefore, hafter⟩ := h
  exact ⟨before, g, after, hcalls, hB before g hbefore, hafter⟩

theorem Since.call {R' : Bool → (UInt32 → UInt8) → List (TrapCall Symbol) → Prop}
    {calls : List (TrapCall Symbol)} {g : Symbol} (h : AtFrame kernelDs t f c)
    (hsince : Since o kernelDs B R f c.intr c.core.mem calls) (hargs : argWords (named g) = 0)
    {f' : Frame}
    (hleft : (o.env (named g) c).core.stack.drop (frameAt (named g) (o.env (named g) c)) = f'.words)
    (hR : ∀ after, R c.intr c.core.mem after → R' (o.env (named g) c).intr
      (o.env (named g) c).core.mem (after ++ [⟨named g, c, o.env (named g) c⟩])) :
    Since o kernelDs B R' f' (o.env (named g) c).intr (o.env (named g) c).core.mem
      (calls ++ [⟨named g, c, o.env (named g) c⟩]) := by
  obtain ⟨before, f₁, after, rfl, hB, hlinked, hafter⟩ := hsince
  refine ⟨before, f₁, after ++ [⟨named g, c, o.env (named g) c⟩], List.append_assoc .., hB, ?_,
    hR after hafter⟩
  refine Linked.call (c := ⟨named g, c, o.env (named g) c⟩) (h := f') hlinked rfl
    ⟨h.ds, h.es⟩ ?_ hleft
  exact (congrArg (c.core.stack.drop ·) hargs).trans h.stack

theorem Quiet.since (hR : ∀ mem mem' calls, R true mem calls → R true mem' calls) :
    Quiet (Since o kernelDs B R) := by
  rintro f mem mem' calls ⟨before, g, after, hcalls, hB, hlinked, hafter⟩
  exact ⟨before, g, after, hcalls, hB, hlinked, hR mem mem' after hafter⟩

theorem quiet_scheduled : Quiet (Looping o kernelDs B) :=
  Quiet.since fun _ _ _ h => h

/-- With interrupts on, only a signal ends the way back. -/
theorem quiet_returnCalls : Quiet (Since o kernelDs B (ReturnCalls t)) := by
  refine Quiet.since ?_
  rintro mem mem' calls ⟨scheds, tail, hcalls, hscheds, ⟨-, hintr, -⟩ | hsignal⟩
  · cases hintr
  · exact ⟨scheds, tail, hcalls, hscheds, Or.inr hsignal⟩

theorem holds_back {H : Beyond} (hnull : o.loads 0 = true) (hH : Quiet H) :
    (machine nrSyscalls kernelDs o).Holds (Exits o H) n
      (Held H fun f c => c.core.stack = f.words)
      (goto .restoreAll (listing nrSyscalls kernelDs o.address)) := by
  rw [goto_restoreAll]
  exact holds_label ⟨fun _ _ _ _ h => h, hH⟩ (holds_restoreAll .restoreAll hnull hH)

theorem settled_atFrame {H : Beyond} (hH : Quiet H) : Settled H (AtFrame kernelDs t) :=
  ⟨fun _ _ mem _ h => h.withMem mem, hH⟩

theorem holds_reschedule (hconv : Convention o)
    (hloop : (machine nrSyscalls kernelDs o).Holds (Exits o (Since o kernelDs B (ReturnCalls t))) n
      (Held (Looping o kernelDs B) (AtFrame kernelDs t))
      (goto (.path .retFromSysCall) (listing nrSyscalls kernelDs o.address))) :
    (machine nrSyscalls kernelDs o).Holds (Exits o (Since o kernelDs B (ReturnCalls t))) n
      (Held (Looping o kernelDs B) (AtFrame kernelDs t))
      (goto .reschedule (listing nrSyscalls kernelDs o.address)) := by
  obtain ⟨rest, hcode⟩ := goto_reschedule nrSyscalls kernelDs o.address
  have hsettled : Settled (Looping o kernelDs B) (AtFrame kernelDs t) :=
    settled_atFrame quiet_scheduled
  rw [hcode]
  refine holds_label hsettled (holds_call _ _ (fun _ _ _ => rfl) hsettled ?_
    (holds_jmp hsettled hloop))
  intro f c calls hframe hsince
  obtain ⟨f', hframe'⟩ := hframe.call hconv (named .schedule) rfl
  refine ⟨f', hframe', Since.call hframe hsince rfl hframe'.stack ?_⟩
  intro after hafter d hd
  rcases List.mem_append.1 hd with hd | hd
  · exact hafter d hd
  · rw [List.mem_singleton.1 hd]

theorem AtFrame.frame_eflags (h : AtFrame kernelDs t f c) : c.core.frame EFLAGS = f.eflags := by
  rw [State.frame, h.stack]
  rfl

/-- On the way to `do_signal`, with the pointer to the frame in `%eax`. -/
structure AtSignal (kernelDs t : UInt32) (f : Frame) (c : Cpu) : Prop extends
    AtFrame kernelDs t f c where
  regs : c.core.reg .eax = c.core.esp
  zf : c.core.flags.zf = decide (f.eflags &&& VM_MASK = 0)

def SavedV86 (calls : List (TrapCall Symbol)) : Prop :=
  ∃ scheds c, calls = scheds ++ [c] ∧ Scheduled scheds ∧ c.callee = named .saveV86State ∧
    c.before.core.frame EFLAGS &&& VM_MASK ≠ 0 ∧ c.before.core.reg .eax = c.before.core.esp

theorem holds_doSignal (hconv : Convention o) {A : Frame → Cpu → Prop}
    {rest : List (Assembly.Line Label Instr)} (hA : Settled (Since o kernelDs B R) A)
    (hframe : ∀ f c, A f c → AtFrame kernelDs t f c)
    (hR : ∀ f c after, A f c → R c.intr c.core.mem after → ∃ scheds tail,
      after ++ [⟨named .doSignal, c, o.env (named .doSignal) c⟩] = scheds ++ tail ∧
        Scheduled scheds ∧ SignalCalls tail) :
    (machine nrSyscalls kernelDs o).Holds (Exits o (Since o kernelDs B (ReturnCalls t))) n
      (Held (Since o kernelDs B R) A)
      (.instr (.core (.call .doSignal)) :: .instr (.core (.jmp .restoreAll)) :: rest) := by
  refine holds_call (Since o kernelDs B (ReturnCalls t)) (fun f c => c.core.stack = f.words)
    (fun _ _ _ => rfl) hA ?_ (holds_jmp ⟨fun _ _ _ _ h => h, quiet_returnCalls⟩
      (holds_back hconv.null quiet_returnCalls))
  intro f c calls hf hsince
  obtain ⟨f', hframe'⟩ := (hframe f c hf).call hconv (named .doSignal) rfl
  refine ⟨f', hframe'.stack, Since.call (hframe f c hf) hsince rfl hframe'.stack ?_⟩
  intro after hafter
  obtain ⟨scheds, tail, hcalls, hscheds, htail⟩ := hR f c after hf hafter
  exact ⟨scheds, tail, hcalls, hscheds, Or.inr htail⟩

theorem holds_v86SignalReturn (hconv : Convention o) :
    (machine nrSyscalls kernelDs o).Holds (Exits o (Since o kernelDs B (ReturnCalls t))) n
      (Held (Looping o kernelDs B)
        fun f c => AtSignal kernelDs t f c ∧ f.eflags &&& VM_MASK ≠ 0)
      (goto .v86SignalReturn (listing nrSyscalls kernelDs o.address)) := by
  obtain ⟨rest, hcode⟩ := goto_v86SignalReturn nrSyscalls kernelDs o.address
  have hin : Settled (Looping o kernelDs B)
      fun f c => AtSignal kernelDs t f c ∧ f.eflags &&& VM_MASK ≠ 0 :=
    ⟨fun _ _ mem _ ⟨h, hvm⟩ => ⟨⟨h.withMem mem, h.regs, h.zf⟩, hvm⟩, quiet_scheduled⟩
  let Saved : Beyond := Since o kernelDs B fun _ _ => SavedV86
  have hquiet : Quiet Saved := Quiet.since fun _ _ _ h => h
  -- the frame that the call returns lies further up on the stack
  let Returned : Frame → Cpu → Prop := fun f c =>
    c.core.stack.drop ((c.core.reg .eax - c.core.esp).toNat / 4) = f.words ∧
      c.core.reg .ebx = t ∧ c.core.reg .ds = kernelDs ∧ c.core.reg .es = kernelDs
  rw [hcode]
  refine holds_label hin (holds_call Saved Returned (fun _ _ _ => rfl) hin ?_ ?_)
  · rintro f c calls ⟨hsig, hvm⟩ hsince
    obtain ⟨g, hg⟩ := hconv.v86 c f hsig.stack
    obtain ⟨f', hframe'⟩ := hsig.toAtFrame.call hconv (named .saveV86State) rfl
    refine ⟨g, ⟨hg, hframe'.current, hframe'.ds, hframe'.es⟩,
      Since.call hsig.toAtFrame hsince rfl hg ?_⟩
    intro after hafter
    refine ⟨after, _, rfl, hafter, rfl, ?_, hsig.regs⟩
    rw [hsig.frame_eflags]
    exact hvm
  refine holds_step Saved (AtFrame kernelDs t) (fun _ => rfl) ⟨fun _ _ _ _ h => h, hquiet⟩ ?_ ?_
  · rintro f c calls ⟨hstack, hebx, hds, hes⟩ hsince
    exact ⟨⟨hstack, hebx, hds, hes⟩, hsince⟩
  refine holds_step Saved (fun f c => AtFrame kernelDs t f c ∧ c.core.reg .edx = 0)
    (fun _ => rfl) (settled_atFrame hquiet) ?_ ?_
  · intro f c calls h hsince
    exact ⟨⟨⟨h.stack, h.current, h.ds, h.es⟩, rfl⟩, hsince⟩
  refine holds_doSignal hconv ⟨fun _ _ mem _ h => ⟨h.1.withMem mem, h.2⟩, hquiet⟩
    (fun _ _ h => h.1) ?_
  rintro f c after ⟨-, hedx⟩ ⟨scheds, d, rfl, hscheds, hd, hvm, hregs⟩
  exact ⟨scheds, [d, _], List.append_assoc .., hscheds, .v86 hd hvm hregs rfl hedx⟩

theorem holds_signalReturn (hconv : Convention o) :
    (machine nrSyscalls kernelDs o).Holds (Exits o (Since o kernelDs B (ReturnCalls t))) n
      (Held (Looping o kernelDs B) (AtFrame kernelDs t))
      (goto .signalReturn (listing nrSyscalls kernelDs o.address)) := by
  obtain ⟨rest, hcode⟩ := goto_signalReturn nrSyscalls kernelDs o.address
  have hin : Settled (Looping o kernelDs B) (AtFrame kernelDs t) := settled_atFrame quiet_scheduled
  let L := Looping o kernelDs B
  rw [hcode]
  refine holds_label hin (holds_step L (AtFrame kernelDs t) (fun _ => rfl) hin ?_ ?_)
  · intro f c calls h hsince
    exact ⟨⟨h.stack, h.current, h.ds, h.es⟩, hsince⟩
  refine holds_step L (fun f c => AtFrame kernelDs t f c ∧
    c.core.flags.zf = decide (f.eflags &&& VM_MASK = 0)) (fun _ => rfl) hin ?_ ?_
  · intro f c calls h hsince
    refine ⟨⟨⟨h.stack, h.current, h.ds, h.es⟩, ?_⟩, hsince⟩
    exact congrArg (fun w => decide (w &&& VM_MASK = 0)) h.frame_eflags
  refine holds_step L (AtSignal kernelDs t) (fun _ => rfl)
    ⟨fun _ _ mem _ h => ⟨h.1.withMem mem, h.2⟩, quiet_scheduled⟩ ?_ ?_
  · rintro f c calls ⟨h, hzf⟩ hsince
    exact ⟨⟨⟨h.stack, h.current, h.ds, h.es⟩, rfl, hzf⟩, hsince⟩
  refine holds_branch L (fun f c => AtSignal kernelDs t f c ∧ f.eflags &&& VM_MASK = 0)
    L (fun f c => AtSignal kernelDs t f c ∧ f.eflags &&& VM_MASK ≠ 0)
    (fun c => !c.core.flags.zf) (fun _ => rfl)
    ⟨fun _ _ mem _ h => ⟨h.withMem mem, h.regs, h.zf⟩, quiet_scheduled⟩ ?_ ?_ ?_
    (holds_v86SignalReturn hconv)
  · intro f c calls h hsince htaken
    rw [h.zf, Bool.not_eq_false', decide_eq_true_eq] at htaken
    exact ⟨⟨h, htaken⟩, hsince⟩
  · intro f c calls h hsince htaken
    rw [h.zf, Bool.not_eq_true', decide_eq_false_iff_not] at htaken
    exact ⟨⟨h, htaken⟩, hsince⟩
  refine holds_step L (fun f c => AtFrame kernelDs t f c ∧ c.core.reg .eax = c.core.esp ∧
      c.core.reg .edx = 0 ∧ f.eflags &&& VM_MASK = 0) (fun _ => rfl)
    ⟨fun _ _ mem _ h => ⟨⟨h.1.withMem mem, h.1.regs, h.1.zf⟩, h.2⟩, quiet_scheduled⟩ ?_ ?_
  · rintro f c calls ⟨h, hvm⟩ hsince
    exact ⟨⟨⟨h.stack, h.current, h.ds, h.es⟩, h.regs, rfl, hvm⟩, hsince⟩
  refine holds_doSignal hconv ⟨fun _ _ mem _ h => ⟨h.1.withMem mem, h.2⟩, quiet_scheduled⟩
    (fun _ _ h => h.1) ?_
  rintro f c after ⟨h, hregs, hedx, hvm⟩ hafter
  refine ⟨after, [_], rfl, hafter, .signal rfl ?_ hregs hedx⟩
  rw [h.frame_eflags]
  exact hvm

theorem settled_of_intr {H : Beyond} {A : Frame → Cpu → Prop} (hH : Quiet H)
    (hA : ∀ f c, A f c → c.intr = false) : Settled H A :=
  ⟨fun f c _ hintr h => absurd hintr (by rw [hA f c h]; exact Bool.false_ne_true), hH⟩

structure Masked (kernelDs t : UInt32) (f : Frame) (c : Cpu) : Prop extends
    AtFrame kernelDs t f c where
  intr : c.intr = false

/-- The flags say whether the word at `off` in the task is 0. -/
structure Tested (kernelDs t off : UInt32) (f : Frame) (c : Cpu) : Prop extends
    Masked kernelDs t f c where
  zf : c.core.flags.zf = decide (wordAt c.core.mem (t + off) = 0)

theorem Masked.test (h : Masked kernelDs t f c) (off : UInt32) :
    Tested kernelDs t off f (c.step (.cmplMem 0 off .ebx : Instr)) where
  stack := h.stack
  current := h.current
  ds := h.ds
  es := h.es
  intr := h.intr
  zf := congrArg (fun a => decide (wordAt c.core.mem (a + off) = 0)) h.current

/-- From `ret_from_sys_call`, the listing is left with the frame that the last call left, and with
the scheduler and the signals called as `ReturnCalls` says. -/
theorem holds_retFromSysCall (hconv : Convention o) :
    (machine nrSyscalls kernelDs o).Holds (Exits o (Since o kernelDs B (ReturnCalls t))) n
      (Held (Looping o kernelDs B) (AtFrame kernelDs t))
      (goto (.path .retFromSysCall) (listing nrSyscalls kernelDs o.address)) := by
  have hin : Settled (Looping o kernelDs B) (AtFrame kernelDs t) := settled_atFrame quiet_scheduled
  have hcode := goto_retFromSysCall nrSyscalls kernelDs o.address
  let L := Looping o kernelDs B
  rw [hcode]
  refine Machine.Holds.loop hin.stable fun k hloop => ?_
  rw [← hcode] at hloop
  refine holds_step L (Masked kernelDs t) (fun _ => rfl) hin ?_ ?_
  · intro f c calls h hsince
    exact ⟨⟨⟨h.stack, h.current, h.ds, h.es⟩, rfl⟩, hsince⟩
  refine holds_step L (Tested kernelDs t needResched) (fun _ => rfl)
    (settled_of_intr quiet_scheduled fun _ _ h => h.intr) ?_ ?_
  · intro f c calls h hsince
    exact ⟨h.test needResched, hsince⟩
  refine holds_branch L (fun f c => Masked kernelDs t f c ∧
      wordAt c.core.mem (t + needResched) = 0) L (AtFrame kernelDs t)
    (fun c => !c.core.flags.zf) (fun _ => rfl)
    (settled_of_intr quiet_scheduled fun _ _ h => h.intr) ?_ ?_ ?_ (holds_reschedule hconv hloop)
  · intro f c calls h hsince htaken
    rw [h.zf, Bool.not_eq_false', decide_eq_true_eq] at htaken
    exact ⟨⟨h.toMasked, htaken⟩, hsince⟩
  · intro f c calls h hsince _
    exact ⟨h.toAtFrame, hsince⟩
  refine holds_step L (fun f c => Tested kernelDs t sigpending f c ∧
      wordAt c.core.mem (t + needResched) = 0) (fun _ => rfl)
    (settled_of_intr quiet_scheduled fun _ _ h => h.1.intr) ?_ ?_
  · rintro f c calls ⟨h, hresched⟩ hsince
    exact ⟨⟨h.test sigpending, hresched⟩, hsince⟩
  refine holds_branch (Since o kernelDs B (ReturnCalls t)) (fun f c => c.core.stack = f.words)
    L (AtFrame kernelDs t) (fun c => !c.core.flags.zf) (fun _ => rfl)
    (settled_of_intr quiet_scheduled fun _ _ h => h.1.intr) ?_ ?_
    (holds_back hconv.null quiet_returnCalls) (holds_signalReturn hconv)
  · rintro f c calls ⟨h, hresched⟩ ⟨before, g, after, hcalls, hB, hlinked, hafter⟩ htaken
    rw [h.zf, Bool.not_eq_false', decide_eq_true_eq] at htaken
    refine ⟨h.stack, before, g, after, hcalls, hB, hlinked, after, [], (List.append_nil _).symm,
      hafter, Or.inl ⟨rfl, h.intr, hresched, htaken⟩⟩
  · rintro f c calls ⟨h, -⟩ hsince _
    exact ⟨h.toAtFrame, hsince⟩

theorem holds_ret (hconv : Convention o) :
    (machine nrSyscalls kernelDs o).Holds (Exits o (Since o kernelDs B (ReturnCalls t))) n
      (Held (fun f _ _ calls => B calls f) (AtFrame kernelDs t))
      (goto (.path .retFromSysCall) (listing nrSyscalls kernelDs o.address)) := by
  refine holds_weaken ?_ (holds_retFromSysCall hconv)
  intro f c calls h hB
  exact ⟨h, calls, f, [], (List.append_nil _).symm, hB, .refl f,
    fun _ hd => absurd hd List.not_mem_nil⟩

end Return

end Entry
