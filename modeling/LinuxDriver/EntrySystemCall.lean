import LinuxDriver.EntryTraps

/-!
# A system call from entry to `iret`

`system_call` makes the call that its number asks for, between two of the tracer when the task
is traced, and comes to `ret_from_sys_call` with the result in the frame. A plain call is
audited when the number saved in the frame is in the compare list.
-/

open I386 Assembly

namespace Entry

def tableSlot (number : UInt32) : Target Symbol := .callee (.slot (.path .sysCallTable) number)

def Frame.failed (f : Frame) : Frame := { f with eax := -SystemCall.enosys }

/-- The `PT_TRACESYS` flag of the task at `t`. -/
def traceFlag (t : UInt32) (mem : UInt32 → UInt8) : Bool :=
  mem (t + SystemCall.tskPtrace) &&& SystemCall.PT_TRACESYS != 0

/-- The calls that `system_call` makes for the frame `f₀` of a task whose trace flag is `trace`,
and the frame they leave. The number looked up in the compare list, and by the traced path in the
table, is the one in the frame. -/
inductive SystemCalls (o : Outside Symbol) (nrSyscalls kernelDs : UInt32) (trace : Bool)
    (f₀ : Frame) : List (TrapCall Symbol) → Frame → Prop
  | bad (hnum : ¬ f₀.eax < nrSyscalls) : SystemCalls o nrSyscalls kernelDs trace f₀ [] f₀.failed
  | plain {c : TrapCall Symbol} {f : Frame} (hnum : f₀.eax < nrSyscalls) (htrace : trace = false)
      (hc : c.callee = tableSlot f₀.eax) (hlinked : Linked o kernelDs f₀ [c] f)
      (hlist : f.origEax ∉ SystemCall.compareList) :
      SystemCalls o nrSyscalls kernelDs trace f₀ [c] f
  | audited {c a : TrapCall Symbol} {g f : Frame} (hnum : f₀.eax < nrSyscalls)
      (htrace : trace = false) (hc : c.callee = tableSlot f₀.eax)
      (hlinked : Linked o kernelDs f₀ [c] g) (hlist : g.origEax ∈ SystemCall.compareList)
      (ha : a.callee = named (.path .syscallAudit))
      (hargs : a.before.core.stack = g.origEax :: g.eax :: g.words)
      (haudit : Linked o kernelDs g [a] f) : SystemCalls o nrSyscalls kernelDs trace f₀ [c, a] f
  | traced {b c d : TrapCall Symbol} {g h f : Frame} (hnum : f₀.eax < nrSyscalls)
      (htrace : trace = true) (hb : b.callee = named (.path .syscallTrace))
      (hbefore : Linked o kernelDs f₀.failed [b] g)
      (hlt : g.origEax < nrSyscalls) (hc : c.callee = tableSlot g.origEax)
      (hcall : Linked o kernelDs g [c] h)
      (hd : d.callee = named (.path .syscallTrace)) (hafter : Linked o kernelDs h [d] f) :
      SystemCalls o nrSyscalls kernelDs trace f₀ [b, c, d] f
  | refused {b d : TrapCall Symbol} {g f : Frame} (hnum : f₀.eax < nrSyscalls)
      (htrace : trace = true) (hb : b.callee = named (.path .syscallTrace))
      (hbefore : Linked o kernelDs f₀.failed [b] g) (hge : ¬ g.origEax < nrSyscalls)
      (hd : d.callee = named (.path .syscallTrace)) (hafter : Linked o kernelDs g [d] f) :
      SystemCalls o nrSyscalls kernelDs trace f₀ [b, d] f

/-- The instruction that looks at the trace flag. -/
def testTrace : Instr := path (.testb SystemCall.PT_TRACESYS SystemCall.tskPtrace .ebx)

/-- The calls of `system_call` for the task at `t`, whose flag is read from a memory of `S`. With a
number that is out of range it is not read. -/
def TaskCalls (o : Outside Symbol) (nrSyscalls kernelDs t : UInt32) (S : (UInt32 → UInt8) → Prop)
    (f₀ : Frame) (calls : List (TrapCall Symbol)) (f : Frame) : Prop :=
  ∃ trace, (f₀.eax < nrSyscalls → ∃ mem, S mem ∧ traceFlag t mem = trace) ∧
    SystemCalls o nrSyscalls kernelDs trace f₀ calls f

section Rules

variable {nrSyscalls kernelDs t : UInt32} {o : Outside Symbol} {n : ℕ}
  {Q : Instr → TrapState Symbol → Prop} {B B' : List (TrapCall Symbol) → Frame → Prop}
  {rest : List (Assembly.Line Label Instr)}

def CallsOnly (B : List (TrapCall Symbol) → Frame → Prop) : Beyond := fun f _ _ calls => B calls f

theorem quiet_callsOnly : Quiet (CallsOnly B) := fun _ _ _ _ h => h

theorem holds_plainCall (B' : List (TrapCall Symbol) → Frame → Prop) (hconv : Convention o)
    (g : Symbol) (hargs : argWords (named g) = 0)
    (hg : g ≠ .saveV86State)
    (hB : ∀ calls f c f', B calls f → c.callee = named g → Linked o kernelDs f [c] f' →
      B' (calls ++ [c]) f')
    (hnext : (machine nrSyscalls kernelDs o).Holds Q n
      (Held (CallsOnly B') (AtFrame kernelDs t)) rest) :
    (machine nrSyscalls kernelDs o).Holds Q n (Held (CallsOnly B) (AtFrame kernelDs t))
      (.instr (.core (.call g)) :: rest) := by
  refine holds_call (CallsOnly B') (AtFrame kernelDs t) (fun _ _ _ => rfl)
    (settled_atFrame quiet_callsOnly) ?_ hnext
  intro f c calls h hcalls
  obtain ⟨f', h'⟩ := h.call hconv (named g) hargs
  have hframe : frameAt (named g) (o.env (named g) c) = 0 := by
    rw [frameAt, if_neg, hargs]
    intro heq
    cases heq
    exact hg rfl
  refine ⟨f', h', hB calls f ⟨named g, c, o.env (named g) c⟩ f' hcalls rfl ?_⟩
  refine Linked.call (c := ⟨named g, c, o.env (named g) c⟩) (h := f')
    (.refl f : Linked o kernelDs f [] f) rfl ⟨h.ds, h.es⟩ ?_ ?_
  · exact (congrArg (c.core.stack.drop ·) hargs).trans h.stack
  · exact (congrArg ((o.env (named g) c).core.stack.drop ·) hframe).trans h'.stack

/-- In front of a look-up in the table: the number in `%eax`. -/
structure AtTable (kernelDs t : UInt32) (number : Frame → UInt32) (f : Frame) (c : Cpu) :
    Prop extends AtFrame kernelDs t f c where
  number : c.core.reg .eax = number f

structure AtResult (kernelDs t : UInt32) (f : Frame) (c : Cpu) : Prop extends
    AtFrame kernelDs t f c where
  result : c.core.reg .eax = f.eax

theorem AtTable.withMem {number : Frame → UInt32} {f : Frame} {c : Cpu}
    (h : AtTable kernelDs t number f c) (mem : UInt32 → UInt8) :
    AtTable kernelDs t number f (c.withMem mem) := ⟨h.toAtFrame.withMem mem, h.number⟩

theorem settled_atTable {H : Beyond} (hH : Quiet H) (number : Frame → UInt32) :
    Settled H (AtTable kernelDs t number) :=
  ⟨fun _ _ mem _ h => h.withMem mem, hH⟩

theorem holds_tableCall (B' : List (TrapCall Symbol) → Frame → Prop) (hconv : Convention o)
    (number : Frame → UInt32)
    (hB : ∀ calls f c f', B calls f → c.callee = tableSlot (number f) →
      Linked o kernelDs f [c] f' → B' (calls ++ [c]) f')
    (hnext : (machine nrSyscalls kernelDs o).Holds Q n
      (Held (CallsOnly B') (AtResult kernelDs t)) rest) :
    (machine nrSyscalls kernelDs o).Holds Q n (Held (CallsOnly B) (AtTable kernelDs t number))
      (.instr (path (.callTable .sysCallTable .eax)) ::
        .instr (path (.movl SystemCall.eax (.frame SystemCall.EAX))) :: rest) := by
  -- the frame is given the result before it is stored
  let Returned : Frame → Cpu → Prop := fun h c => ∃ g : Frame, AtFrame kernelDs t g c ∧
    h = { g with eax := c.core.reg .eax }
  have hreturned : Settled (CallsOnly B') Returned :=
    ⟨fun _ _ mem _ ⟨g, hg, hh⟩ => ⟨g, hg.withMem mem, hh⟩, quiet_callsOnly⟩
  refine holds_call (CallsOnly B') Returned (t := fun f => tableSlot (number f)) ?_
    (settled_atTable quiet_callsOnly number) ?_
    (holds_step (CallsOnly B') (AtResult kernelDs t) (fun _ => rfl) hreturned ?_ hnext)
  · intro f s hf
    change Effect.next (s.call o (tableSlot (s.cpu.core.reg .eax))) = _
    rw [hf.number]
  · intro f c calls hf hcalls
    obtain ⟨g, hg⟩ := hf.toAtFrame.call hconv (tableSlot (number f)) rfl
    refine ⟨{ g with eax := (o.env (tableSlot (number f)) c).core.reg .eax }, ⟨g, hg, rfl⟩, ?_⟩
    exact hB calls f ⟨tableSlot (number f), c, o.env (tableSlot (number f)) c⟩ _ hcalls rfl
      (.call (.refl f) rfl ⟨hf.ds, hf.es⟩ hf.stack hg.stack)
  · rintro f ⟨⟨reg, stack, top, mem, flags⟩, eflags, intr, cr0, ss⟩ calls
      ⟨g, ⟨hstack, hebx, hds, hes⟩, rfl⟩ hcalls
    cases hstack
    exact ⟨⟨⟨rfl, hebx, hds, hes⟩, rfl⟩, hcalls⟩

theorem AtFrame.frame_origEax {f : Frame} {c : Cpu} (h : AtFrame kernelDs t f c) :
    c.core.frame SystemCall.ORIG_EAX = f.origEax := by
  rw [State.frame, h.stack]
  rfl

/-- The compare chain goes to the audit with a number in the list, and on with any other. -/
theorem holds_compareChain (ks : List UInt32) (hks : ∀ k ∈ ks, k ∈ SystemCall.compareList)
    {R : Frame → Prop}
    (hjump : (machine nrSyscalls kernelDs o).Holds Q n
      (Held (CallsOnly B) fun f c =>
        AtResult kernelDs t f c ∧ f.origEax ∈ SystemCall.compareList)
      (goto (.path .auditsys) (listing nrSyscalls kernelDs o.address)))
    (hnext : (machine nrSyscalls kernelDs o).Holds Q n
      (Held (CallsOnly B) fun f c => AtResult kernelDs t f c ∧ R f ∧ f.origEax ∉ ks) rest) :
    (machine nrSyscalls kernelDs o).Holds Q n
      (Held (CallsOnly B) fun f c => AtResult kernelDs t f c ∧ R f)
      ((body (SystemCall.compareChain ks)).map .instr ++ rest) := by
  induction ks generalizing R with
  | nil =>
      refine holds_weaken ?_ hnext
      intro f c calls h hcalls
      exact ⟨⟨h.1, h.2, List.not_mem_nil⟩, hcalls⟩
  | cons k ks ih =>
      have hA : Settled (CallsOnly B) fun f c => AtResult kernelDs t f c ∧ R f :=
        ⟨fun _ _ mem _ h => ⟨⟨h.1.withMem mem, h.1.result⟩, h.2⟩, quiet_callsOnly⟩
      have hcmp : Settled (CallsOnly B) fun f c => (AtResult kernelDs t f c ∧ R f) ∧
          c.core.flags.zf = decide (f.origEax = k) :=
        ⟨fun _ _ mem hi h => ⟨hA.cpu _ _ mem hi h.1, h.2⟩, quiet_callsOnly⟩
      have hcode : (body (SystemCall.compareChain (k :: ks))).map Assembly.Line.instr ++ rest =
          .instr (path (.cmpl (.imm k) (.frame SystemCall.ORIG_EAX))) ::
            .instr (path (.je .auditsys)) ::
            ((body (SystemCall.compareChain ks)).map .instr ++ rest) := rfl
      rw [hcode]
      refine holds_step (CallsOnly B) (fun f c => (AtResult kernelDs t f c ∧ R f) ∧
        c.core.flags.zf = decide (f.origEax = k)) (fun _ => rfl) hA ?_
        (holds_branch (CallsOnly B) (fun f c => AtResult kernelDs t f c ∧
            (R f ∧ f.origEax ≠ k)) _ _ (fun c => c.core.flags.zf) (fun _ => rfl) hcmp ?_ ?_
          (ih (fun j hj => hks j (List.mem_cons_of_mem k hj)) ?_) hjump)
      · rintro f c calls ⟨h, hR⟩ hcalls
        refine ⟨⟨⟨⟨⟨h.stack, h.current, h.ds, h.es⟩, h.result⟩, hR⟩, ?_⟩, hcalls⟩
        exact congrArg (fun w => decide (w = k)) h.frame_origEax
      · rintro f c calls ⟨⟨h, hR⟩, hzf⟩ hcalls htaken
        rw [hzf, decide_eq_false_iff_not] at htaken
        exact ⟨⟨h, hR, htaken⟩, hcalls⟩
      · rintro f c calls ⟨⟨h, hR⟩, hzf⟩ hcalls htaken
        rw [hzf, decide_eq_true_eq] at htaken
        exact ⟨⟨h, hks _ (htaken ▸ List.mem_cons_self)⟩, hcalls⟩
      · refine holds_weaken ?_ hnext
        rintro f c calls ⟨h, ⟨hR, hne⟩, hmem⟩ hcalls
        exact ⟨⟨h, hR, List.not_mem_cons_of_ne_of_not_mem hne hmem⟩, hcalls⟩

theorem goto_auditsys (nrSyscalls kernelDs : UInt32) (address : Symbol → UInt32) : ∃ rest,
    goto (.path .auditsys) (listing nrSyscalls kernelDs address) =
      .label (.path .auditsys) :: .instr (path (.pushl SystemCall.eax)) ::
        .instr (path (.pushl (.val (.frame 0x28)))) :: .instr (path (.call .syscallAudit)) ::
        .instr (path (.popl .eax)) :: .instr (path (.popl .eax)) ::
        .instr (path (.jmp .retFromSysCall)) :: rest :=
  goto_block nrSyscalls kernelDs address (k := 11) rfl

theorem holds_auditsys (hconv : Convention o)
    (hB : ∀ calls f a f', B calls f → f.origEax ∈ SystemCall.compareList →
      a.callee = named (.path .syscallAudit) →
      a.before.core.stack = f.origEax :: f.eax :: f.words → Linked o kernelDs f [a] f' →
      B' (calls ++ [a]) f')
    (hret : (machine nrSyscalls kernelDs o).Holds Q n
      (Held (CallsOnly B') (AtFrame kernelDs t))
      (goto (.path .retFromSysCall) (listing nrSyscalls kernelDs o.address))) :
    (machine nrSyscalls kernelDs o).Holds Q n
      (Held (CallsOnly B) fun f c =>
        AtResult kernelDs t f c ∧ f.origEax ∈ SystemCall.compareList)
      (goto (.path .auditsys) (listing nrSyscalls kernelDs o.address)) := by
  obtain ⟨rest, hcode⟩ := goto_auditsys nrSyscalls kernelDs o.address
  let audit : Target Symbol := named (.path .syscallAudit)
  let Args : (Frame → List UInt32) → Frame → Cpu → Prop := fun args f c =>
    c.core.stack = args f ++ f.words ∧ c.core.reg .ebx = t ∧ c.core.reg .ds = kernelDs ∧
      c.core.reg .es = kernelDs ∧ f.origEax ∈ SystemCall.compareList
  have hargs : ∀ args, Settled (CallsOnly B) (Args args) :=
    fun _ => ⟨fun _ _ _ _ h => h, quiet_callsOnly⟩
  have hin : Settled (CallsOnly B) fun f c =>
      AtResult kernelDs t f c ∧ f.origEax ∈ SystemCall.compareList :=
    ⟨fun _ _ mem _ h => ⟨⟨h.1.withMem mem, h.1.result⟩, h.2⟩, quiet_callsOnly⟩
  rw [hcode]
  refine holds_label hin (holds_step (CallsOnly B) (Args fun f => [f.eax]) (fun _ => rfl) hin ?_
    (holds_step (CallsOnly B) (Args fun f => [f.origEax, f.eax]) (fun _ => rfl) (hargs _) ?_ ?_))
  · rintro f ⟨⟨reg, stack, top, mem, flags⟩, eflags, intr, cr0, ss⟩ calls
      ⟨⟨⟨hstack, hebx, hds, hes⟩, hresult⟩, hlist⟩ hcalls
    cases hstack
    exact ⟨⟨congrArg (· :: f.words) hresult, hebx, hds, hes, hlist⟩, hcalls⟩
  · rintro f ⟨⟨reg, stack, top, mem, flags⟩, eflags, intr, cr0, ss⟩ calls
      ⟨hstack, hebx, hds, hes, hlist⟩ hcalls
    cases hstack
    exact ⟨⟨rfl, hebx, hds, hes, hlist⟩, hcalls⟩
  refine holds_call (CallsOnly B') (Called kernelDs t 2) (t := fun _ => audit) (fun _ _ _ => rfl)
    (hargs _) ?_ ?_
  · rintro f c calls ⟨hstack, hebx, hds, hes, hlist⟩ hcalls
    obtain ⟨args', g, hleft, hlen⟩ := hconv.stack audit c [f.origEax, f.eax] f hstack rfl
    refine ⟨g, ⟨⟨args', hlen, hleft⟩, ?_, ?_, ?_⟩, ?_⟩
    · rw [hconv.reg _ _ _ (by decide) (by decide) (by decide), hebx]
    · rw [hconv.reg _ _ _ (by decide) (by decide) (by decide), hds]
    · rw [hconv.reg _ _ _ (by decide) (by decide) (by decide), hes]
    · refine hB calls f ⟨audit, c, o.env audit c⟩ g hcalls hlist rfl hstack ?_
      refine Linked.call (c := ⟨audit, c, o.env audit c⟩) (h := g) (.refl f) rfl ⟨hds, hes⟩ ?_ ?_
      · exact congrArg (List.drop 2) hstack
      · exact (congrArg (List.drop 2) hleft).trans (List.drop_left' hlen)
  refine holds_step (CallsOnly B') (Called kernelDs t 1) (fun _ => rfl)
    (settled_called quiet_callsOnly 2) (fun f c calls h hcalls => ⟨h.popl, hcalls⟩) ?_
  refine holds_step (CallsOnly B') (Called kernelDs t 0) (fun _ => rfl)
    (settled_called quiet_callsOnly 1) (fun f c calls h hcalls => ⟨h.popl, hcalls⟩) ?_
  exact holds_weaken (fun f c calls h hcalls => ⟨h.atFrame, hcalls⟩)
    (holds_jmp (settled_atFrame quiet_callsOnly) hret)

theorem goto_tracesysExit (nrSyscalls kernelDs : UInt32) (address : Symbol → UInt32) : ∃ rest,
    goto (.path .tracesysExit) (listing nrSyscalls kernelDs address) =
      .label (.path .tracesysExit) :: .instr (path (.call .syscallTrace)) ::
        .instr (path (.jmp .retFromSysCall)) :: rest :=
  goto_block nrSyscalls kernelDs address (k := 13) rfl

theorem goto_tracesys (nrSyscalls kernelDs : UInt32) (address : Symbol → UInt32) :
    goto (.path .tracesys) (listing nrSyscalls kernelDs address) =
      .label (.path .tracesys) ::
        .instr (path (.movl (.imm (-SystemCall.enosys)) (.frame SystemCall.EAX))) ::
        .instr (path (.call .syscallTrace)) ::
        .instr (path (.movl (.val (.frame SystemCall.ORIG_EAX)) (.reg .eax))) ::
        .instr (path (.cmpl (.imm nrSyscalls) (.reg .eax))) ::
        .instr (path (.jae .tracesysExit)) ::
        .instr (path (.callTable .sysCallTable .eax)) ::
        .instr (path (.movl SystemCall.eax (.frame SystemCall.EAX))) ::
        goto (.path .tracesysExit) (listing nrSyscalls kernelDs address) := by
  rw [goto_next nrSyscalls kernelDs address (k := 12) rfl rfl]
  simp only [body, SystemCall.tracesys, SystemCall.instrs, List.map_cons, List.map_nil,
    List.filterMap_cons, List.filterMap_nil, List.cons_append, List.nil_append]

theorem goto_badsys (nrSyscalls kernelDs : UInt32) (address : Symbol → UInt32) : ∃ rest,
    goto (.path .badsys) (listing nrSyscalls kernelDs address) =
      .label (.path .badsys) ::
        .instr (path (.movl (.imm (-SystemCall.enosys)) (.frame SystemCall.EAX))) ::
        .instr (path (.jmp .retFromSysCall)) :: rest :=
  goto_block nrSyscalls kernelDs address (k := 14) rfl

theorem holds_tracesysExit (hconv : Convention o)
    (hB : ∀ calls f c f', B calls f → c.callee = named (.path .syscallTrace) →
      Linked o kernelDs f [c] f' → B' (calls ++ [c]) f')
    (hret : (machine nrSyscalls kernelDs o).Holds Q n
      (Held (CallsOnly B') (AtFrame kernelDs t))
      (goto (.path .retFromSysCall) (listing nrSyscalls kernelDs o.address))) :
    (machine nrSyscalls kernelDs o).Holds Q n (Held (CallsOnly B) (AtFrame kernelDs t))
      (goto (.path .tracesysExit) (listing nrSyscalls kernelDs o.address)) := by
  obtain ⟨rest, hcode⟩ := goto_tracesysExit nrSyscalls kernelDs o.address
  rw [hcode]
  exact holds_label (settled_atFrame quiet_callsOnly)
    (holds_plainCall B' hconv (.path .syscallTrace) rfl nofun hB
      (holds_jmp (settled_atFrame quiet_callsOnly) hret))

theorem AtFrame.fail {f : Frame} {c : Cpu} (h : AtFrame kernelDs t f c) :
    AtFrame kernelDs t f.failed
      (c.step (path (.movl (.imm (-SystemCall.enosys)) (.frame SystemCall.EAX)))) := by
  obtain ⟨⟨reg, stack, top, mem, flags⟩, eflags, intr, cr0, ss⟩ := c
  obtain ⟨hstack, hebx, hds, hes⟩ := h
  cases hstack
  exact ⟨rfl, hebx, hds, hes⟩

end Rules

section Path

variable {nrSyscalls kernelDs t top : UInt32} {o : Outside Symbol} {n : ℕ} {f₀ : Frame}
  {Q : Instr → TrapState Symbol → Prop}

/-- The tracer has been told of the call. -/
def Told (o : Outside Symbol) (kernelDs : UInt32) (f₀ : Frame) (calls : List (TrapCall Symbol))
    (g : Frame) : Prop :=
  ∃ b, calls = [b] ∧ b.callee = named (.path .syscallTrace) ∧ Linked o kernelDs f₀.failed [b] g

/-- The call of a traced task has been made. -/
def Served (o : Outside Symbol) (nrSyscalls kernelDs : UInt32) (f₀ : Frame)
    (calls : List (TrapCall Symbol)) (h : Frame) : Prop :=
  ∃ b c g, calls = [b, c] ∧ Told o kernelDs f₀ [b] g ∧ g.origEax < nrSyscalls ∧
    c.callee = tableSlot g.origEax ∧ Linked o kernelDs g [c] h

theorem holds_tracesys (hconv : Convention o) (hnum : f₀.eax < nrSyscalls)
    (hret : (machine nrSyscalls kernelDs o).Holds Q n
      (Held (CallsOnly (SystemCalls o nrSyscalls kernelDs true f₀)) (AtFrame kernelDs t))
      (goto (.path .retFromSysCall) (listing nrSyscalls kernelDs o.address))) :
    (machine nrSyscalls kernelDs o).Holds Q n
      (Held NoCalls fun f c => AtFrame kernelDs t f c ∧ f = f₀)
      (goto (.path .tracesys) (listing nrSyscalls kernelDs o.address)) := by
  let Told₀ := CallsOnly (Told o kernelDs f₀)
  have hin : Settled NoCalls fun f c => AtFrame kernelDs t f c ∧ f = f₀ :=
    ⟨fun _ _ mem _ h => ⟨h.1.withMem mem, h.2⟩, quiet_noCalls⟩
  rw [goto_tracesys]
  refine holds_label hin (holds_store (CallsOnly fun calls f => calls = [] ∧ f = f₀.failed)
    (AtFrame kernelDs t) (fun _ => rfl) hin ?_ ?_)
  · rintro f c calls ⟨h, rfl⟩ hcalls
    exact ⟨f.failed, h.fail, hcalls, rfl⟩
  refine holds_plainCall (Told o kernelDs f₀) hconv (.path .syscallTrace) rfl nofun ?_ ?_
  · rintro calls f c f' ⟨rfl, rfl⟩ hc hlinked
    exact ⟨c, rfl, hc, hlinked⟩
  refine holds_step Told₀ (AtTable kernelDs t Frame.origEax) (fun _ => rfl)
    (settled_atFrame quiet_callsOnly) ?_ ?_
  · intro f c calls h hcalls
    exact ⟨⟨⟨h.stack, h.current, h.ds, h.es⟩, h.frame_origEax⟩, hcalls⟩
  refine holds_step Told₀ (fun f c => AtTable kernelDs t Frame.origEax f c ∧
    c.core.flags.cf = decide (f.origEax < nrSyscalls)) (fun _ => rfl)
    (settled_atTable quiet_callsOnly _) ?_ ?_
  · intro f c calls h hcalls
    refine ⟨⟨⟨⟨h.stack, h.current, h.ds, h.es⟩, h.number⟩, ?_⟩, hcalls⟩
    exact congrArg (fun w => decide (w < nrSyscalls)) h.number
  refine holds_branch
    (CallsOnly fun calls f => Told o kernelDs f₀ calls f ∧ f.origEax < nrSyscalls)
    (AtTable kernelDs t Frame.origEax)
    (CallsOnly fun calls f => Told o kernelDs f₀ calls f ∧ ¬ f.origEax < nrSyscalls)
    (AtFrame kernelDs t) (fun c => !c.core.flags.cf) (fun _ => rfl)
    ⟨fun _ _ mem _ h => ⟨h.1.withMem mem, h.2⟩, quiet_callsOnly⟩ ?_ ?_ ?_
    (holds_tracesysExit hconv ?_ hret)
  · rintro f c calls ⟨h, hcf⟩ hcalls htaken
    rw [hcf, Bool.not_eq_false', decide_eq_true_eq] at htaken
    exact ⟨h, hcalls, htaken⟩
  · rintro f c calls ⟨h, hcf⟩ hcalls htaken
    rw [hcf, Bool.not_eq_true', decide_eq_false_iff_not] at htaken
    exact ⟨h.toAtFrame, hcalls, htaken⟩
  · refine holds_tableCall (Served o nrSyscalls kernelDs f₀) hconv Frame.origEax ?_
      (holds_weaken (fun f c calls h hcalls => ⟨h.toAtFrame, hcalls⟩)
        (holds_tracesysExit hconv ?_ hret))
    · rintro calls f c f' ⟨⟨b, rfl, hb, hbefore⟩, hlt⟩ hc hlinked
      exact ⟨b, c, f, rfl, ⟨b, rfl, hb, hbefore⟩, hlt, hc, hlinked⟩
    · rintro calls f d f' ⟨b, c, g, rfl, ⟨b', hb', hb, hbefore⟩, hlt, hc, hcall⟩ hd hafter
      cases hb'
      exact .traced hnum rfl hb hbefore hlt hc hcall hd hafter
  · rintro calls f d f' ⟨⟨b, rfl, hb, hbefore⟩, hge⟩ hd hafter
    exact .refused hnum rfl hb hbefore hge hd hafter

theorem holds_badsys {trace : Bool} (hnum : ¬ f₀.eax < nrSyscalls)
    (hret : (machine nrSyscalls kernelDs o).Holds Q n
      (Held (CallsOnly (SystemCalls o nrSyscalls kernelDs trace f₀)) (AtFrame kernelDs t))
      (goto (.path .retFromSysCall) (listing nrSyscalls kernelDs o.address))) :
    (machine nrSyscalls kernelDs o).Holds Q n
      (Held NoCalls fun f c => AtFrame kernelDs t f c ∧ f = f₀)
      (goto (.path .badsys) (listing nrSyscalls kernelDs o.address)) := by
  obtain ⟨rest, hcode⟩ := goto_badsys nrSyscalls kernelDs o.address
  have hin : Settled NoCalls fun f c => AtFrame kernelDs t f c ∧ f = f₀ :=
    ⟨fun _ _ mem _ h => ⟨h.1.withMem mem, h.2⟩, quiet_noCalls⟩
  rw [hcode]
  refine holds_label hin (holds_store (CallsOnly (SystemCalls o nrSyscalls kernelDs trace f₀))
    (AtFrame kernelDs t) (fun _ => rfl) hin ?_
    (holds_jmp (settled_atFrame quiet_callsOnly) hret))
  rintro f c calls ⟨h, rfl⟩ rfl
  exact ⟨f.failed, h.fail, .bad hnum⟩

theorem goto_systemCall (nrSyscalls kernelDs : UInt32) (address : Symbol → UInt32) :
    goto (.path .systemCall) (listing nrSyscalls kernelDs address) =
      .label (.path .systemCall) :: (((SystemCall.prologue kernelDs).map path).map .instr ++
        .instr (path (.cmpl (.imm nrSyscalls) (.reg .eax))) :: .instr (path (.jae .badsys)) ::
        .instr (path (.testb SystemCall.PT_TRACESYS SystemCall.tskPtrace .ebx)) ::
        .instr (path (.jne .tracesys)) :: .instr (path (.callTable .sysCallTable .eax)) ::
        .instr (path (.movl SystemCall.eax (.frame SystemCall.EAX))) ::
        ((body (SystemCall.compareChain SystemCall.compareList)).map .instr ++
          goto (.path .retFromSysCall) (listing nrSyscalls kernelDs address))) := by
  rw [goto_next nrSyscalls kernelDs address (k := 3) rfl rfl]
  simp only [List.map_append, List.append_assoc]
  rfl

theorem atTable_prologue (horig : f₀.origEax = f₀.eax) (f : Frame) (c : Cpu)
    (h : f = f₀ ∧ Interrupted f [] top c) :
    AtTable kernelDs (currentAt top (f₀.above.length + 13)) Frame.eax f
      (((SystemCall.prologue kernelDs).map path).foldl Cpu.step c) ∧ f = f₀ := by
  obtain ⟨rfl, hreg, hstack, htop⟩ := h
  obtain ⟨⟨reg, stack, top', mem, flags⟩, eflags, intr, cr0, ss⟩ := c
  cases hreg
  cases hstack
  cases htop
  refine ⟨⟨⟨?_, rfl, rfl, rfl⟩, rfl⟩, rfl⟩
  change ({ f with origEax := f.eax } : Frame).words = f.words
  rw [Frame.withOrigEax horig]

structure AtTrace (kernelDs t : UInt32) (trace : Bool) (f : Frame) (c : Cpu) : Prop extends
    AtTable kernelDs t Frame.eax f c where
  zf : c.core.flags.zf = !trace

theorem holds_traceBranch (hconv : Convention o) (hlt : f₀.eax < nrSyscalls) (trace : Bool) :
    (machine nrSyscalls kernelDs o).Holds
      (Exits o (Since o kernelDs (SystemCalls o nrSyscalls kernelDs trace f₀) (ReturnCalls t))) n
      (Held NoCalls fun f c => AtTrace kernelDs t trace f c ∧ f = f₀)
      (.instr (path (.jne .tracesys)) :: .instr (path (.callTable .sysCallTable .eax)) ::
        .instr (path (.movl SystemCall.eax (.frame SystemCall.EAX))) ::
        ((body (SystemCall.compareChain SystemCall.compareList)).map .instr ++
          goto (.path .retFromSysCall) (listing nrSyscalls kernelDs o.address))) := by
  have hin : Settled NoCalls fun f c => AtTrace kernelDs t trace f c ∧ f = f₀ :=
    ⟨fun _ _ mem _ h => ⟨⟨h.1.withMem mem, h.1.zf⟩, h.2⟩, quiet_noCalls⟩
  have hret : (machine nrSyscalls kernelDs o).Holds
      (Exits o (Since o kernelDs (SystemCalls o nrSyscalls kernelDs trace f₀) (ReturnCalls t))) n
      (Held (CallsOnly (SystemCalls o nrSyscalls kernelDs trace f₀)) (AtFrame kernelDs t))
      (goto (.path .retFromSysCall) (listing nrSyscalls kernelDs o.address)) := holds_ret hconv
  refine holds_branch NoCalls
    (fun f c => (AtTable kernelDs t Frame.eax f c ∧ f = f₀) ∧ trace = false) NoCalls
    (fun f c => (AtFrame kernelDs t f c ∧ f = f₀) ∧ trace = true)
    (fun c => !c.core.flags.zf) (fun _ => rfl) hin ?_ ?_ (holds_of_pure fun htrace => ?_)
    (holds_of_pure fun htrace => ?_)
  · rintro f c calls ⟨h, hf⟩ hcalls htaken
    rw [h.zf, Bool.not_not] at htaken
    exact ⟨⟨⟨h.toAtTable, hf⟩, htaken⟩, hcalls⟩
  · rintro f c calls ⟨h, hf⟩ hcalls htaken
    rw [h.zf, Bool.not_not] at htaken
    exact ⟨⟨⟨h.toAtFrame, hf⟩, htaken⟩, hcalls⟩
  · subst htrace
    let Start : List (TrapCall Symbol) → Frame → Prop := fun calls f => calls = [] ∧ f = f₀
    let Made : List (TrapCall Symbol) → Frame → Prop := fun calls f =>
      ∃ c, calls = [c] ∧ c.callee = tableSlot f₀.eax ∧ Linked o kernelDs f₀ [c] f
    have hstart : ∀ f c calls, AtTable kernelDs t Frame.eax f c ∧ f = f₀ →
        NoCalls f c.intr c.core.mem calls →
        AtTable kernelDs t Frame.eax f c ∧ CallsOnly Start f c.intr c.core.mem calls :=
      fun f c calls h hcalls => ⟨h.1, hcalls, h.2⟩
    refine holds_weaken hstart (holds_tableCall Made hconv Frame.eax ?_ (holds_weaken
      (fun f c calls h hcalls => ⟨⟨h, trivial⟩, hcalls⟩)
      (holds_compareChain SystemCall.compareList (fun _ hk => hk) (R := fun _ => True)
        (holds_auditsys hconv ?_ hret) (holds_weaken ?_ hret))))
    · rintro calls f c f' ⟨rfl, rfl⟩ hc hlinked
      exact ⟨c, rfl, hc, hlinked⟩
    · rintro calls f a f' ⟨c, rfl, hc, hlinked⟩ hlist ha hargs haudit
      exact .audited hlt rfl hc hlinked hlist ha hargs haudit
    · rintro f c calls ⟨h, -, hlist⟩ ⟨d, rfl, hc, hlinked⟩
      exact ⟨h.toAtFrame, .plain hlt rfl hc hlinked hlist⟩
  · subst htrace
    exact holds_tracesys hconv hlt hret

theorem settled_numbered (kernelDs t : UInt32) (f₀ : Frame) :
    Settled NoCalls fun f c => AtTable kernelDs t Frame.eax f c ∧ f = f₀ :=
  ⟨fun _ _ mem _ h => ⟨h.1.withMem mem, h.2⟩, quiet_noCalls⟩

/-- In front of the branch on a number that is out of range. -/
structure AtBound (nrSyscalls kernelDs t : UInt32) (f₀ f : Frame) (c : Cpu) : Prop extends
    AtTable kernelDs t Frame.eax f c where
  frame : f = f₀
  cf : c.core.flags.cf = decide (f₀.eax < nrSyscalls)

theorem settled_atBound (nrSyscalls kernelDs t : UInt32) (f₀ : Frame) :
    Settled NoCalls (AtBound nrSyscalls kernelDs t f₀) :=
  ⟨fun _ _ mem _ h => ⟨h.toAtTable.withMem mem, h.frame, h.cf⟩, quiet_noCalls⟩

theorem atBound_step {f : Frame} {c : Cpu} (h : AtTable kernelDs t Frame.eax f c) (hf : f = f₀) :
    AtBound nrSyscalls kernelDs t f₀ f (c.step (path (.cmpl (.imm nrSyscalls) (.reg .eax)))) := by
  subst hf
  refine ⟨⟨⟨h.stack, h.current, h.ds, h.es⟩, h.number⟩, rfl, ?_⟩
  exact congrArg (fun w => decide (w < nrSyscalls)) h.number

/-- A number that is out of range. -/
theorem holds_systemCall_bad (hconv : Convention o) (horig : f₀.origEax = f₀.eax)
    (hge : ¬ f₀.eax < nrSyscalls) (trace : Bool) :
    (machine nrSyscalls kernelDs o).Holds
      (Exits o (Since o kernelDs (SystemCalls o nrSyscalls kernelDs trace f₀)
        (ReturnCalls (currentAt top (f₀.above.length + 13))))) n
      (Held NoCalls fun f c => f = f₀ ∧ Interrupted f [] top c)
      (goto (.path .systemCall) (listing nrSyscalls kernelDs o.address)) := by
  let t : UInt32 := currentAt top (f₀.above.length + 13)
  have htable := settled_numbered kernelDs t f₀
  rw [goto_systemCall]
  refine holds_label (settled_interrupted f₀ [] top) (holds_block _ rfl
    (settled_interrupted f₀ [] top) (atTable_prologue horig)
    (holds_step NoCalls (AtBound nrSyscalls kernelDs t f₀) (fun _ => rfl) htable ?_ ?_))
  · intro f c calls h hcalls
    exact ⟨atBound_step h.1 h.2, hcalls⟩
  refine holds_branch NoCalls (fun _ _ => False) NoCalls
    (fun f c => AtFrame kernelDs t f c ∧ f = f₀) (fun c => !c.core.flags.cf) (fun _ => rfl)
    (settled_atBound nrSyscalls kernelDs t f₀) ?_ ?_ ?_ (holds_badsys hge (holds_ret hconv))
  · intro f c calls h hcalls htaken
    rw [h.cf, Bool.not_eq_false', decide_eq_true_eq] at htaken
    exact absurd htaken hge
  · intro f c calls h hcalls _
    exact ⟨⟨h.toAtFrame, h.frame⟩, hcalls⟩
  · rintro s ⟨f, hfalse, -⟩
    exact hfalse.elim

/-- With a number in range, a run that leaves takes the test of the trace flag. -/
theorem passes_testTrace (horig : f₀.origEax = f₀.eax) (hlt : f₀.eax < nrSyscalls) :
    (machine nrSyscalls kernelDs o).Passes
      (Held NoCalls fun f c => f = f₀ ∧ Interrupted f [] top c)
      (goto (.path .systemCall) (listing nrSyscalls kernelDs o.address))
      (Held NoCalls fun f c =>
        AtTable kernelDs (currentAt top (f₀.above.length + 13)) Frame.eax f c ∧ f = f₀)
      (.instr testTrace :: .instr (path (.jne .tracesys)) ::
        .instr (path (.callTable .sysCallTable .eax)) ::
        .instr (path (.movl SystemCall.eax (.frame SystemCall.EAX))) ::
        ((body (SystemCall.compareChain SystemCall.compareList)).map .instr ++
          goto (.path .retFromSysCall) (listing nrSyscalls kernelDs o.address))) := by
  let t : UInt32 := currentAt top (f₀.above.length + 13)
  have htable := settled_numbered kernelDs t f₀
  rw [goto_systemCall]
  refine Machine.Passes.label (settled_interrupted f₀ [] top).stable (passes_block _ rfl
    (settled_interrupted f₀ [] top) (atTable_prologue horig) (Machine.Passes.next htable.stable ?_
      (Machine.Passes.next (settled_atBound nrSyscalls kernelDs t f₀).stable ?_
        (Machine.Passes.line htable.stable fun s _ => ⟨_, rfl⟩))))
  · rintro s ⟨f, h, hcalls⟩
    exact ⟨_, rfl, f, atBound_step h.1 h.2, hcalls⟩
  · rintro s ⟨f, h, hcalls⟩
    have hcf : s.cpu.core.flags.cf = true := h.cf.trans (decide_eq_true hlt)
    refine ⟨s, ?_, f, ⟨h.toAtTable, h.frame⟩, hcalls⟩
    change s.jumpIf (!s.cpu.core.flags.cf) _ = _
    rw [hcf]
    rfl

theorem step_testTrace {code : List (Assembly.Line Label Instr)} (s : TrapState Symbol)
    (h : Held NoCalls (fun f c => AtTable kernelDs t Frame.eax f c ∧ f = f₀) s) : ∃ s',
    (machine nrSyscalls kernelDs o).step ⟨.instr testTrace :: code, s⟩ none = ⟨code, s'⟩ ∧
      Held NoCalls
        (fun f c => AtTrace kernelDs t (traceFlag t s.cpu.core.mem) f c ∧ f = f₀) s' := by
  obtain ⟨f, ⟨h, hf⟩, hcalls⟩ := h
  refine ⟨_, rfl, f, ⟨⟨⟨⟨h.stack, h.current, h.ds, h.es⟩, h.number⟩, ?_⟩, hf⟩, hcalls⟩
  have hflag : traceFlag t s.cpu.core.mem = traceFlag (s.cpu.core.reg .ebx) s.cpu.core.mem := by
    rw [h.current]
  rw [hflag, traceFlag, bne, Bool.not_not]
  rfl

theorem exits_systemCall (hconv : Convention o) (horig : f₀.origEax = f₀.eax) {c : Cpu}
    (hentry : Interrupted f₀ [] top c) {ticks : List (Option (UInt32 → UInt8))} {i : Instr}
    {start : Config Label Instr (TrapState Symbol)}
    (hstart : start = ⟨goto (.path .systemCall) (listing nrSyscalls kernelDs o.address), ⟨c, []⟩⟩)
    (hleave : (machine nrSyscalls kernelDs o).Leaves
      ((machine nrSyscalls kernelDs o).run start ticks) i) :
    ∃ trace, (f₀.eax < nrSyscalls → ∃ mem,
        Found nrSyscalls kernelDs o start ticks testTrace mem ∧
        traceFlag (currentAt top (f₀.above.length + 13)) mem = trace) ∧
      Exits o (Since o kernelDs (SystemCalls o nrSyscalls kernelDs trace f₀)
        (ReturnCalls (currentAt top (f₀.above.length + 13)))) i
        ((machine nrSyscalls kernelDs o).run start ticks).state := by
  subst hstart
  have hentered : Held NoCalls (fun f c => f = f₀ ∧ Interrupted f [] top c)
      (⟨c, []⟩ : TrapState Symbol) := ⟨f₀, ⟨rfl, hentry⟩, rfl⟩
  by_cases hlt : f₀.eax < nrSyscalls
  · obtain ⟨before, after, s₁, s₂, rfl, hrun, ⟨_, -, hcalls⟩, hs₂, hgo⟩ :=
      (passes_testTrace horig hlt).taken step_testTrace hentered ⟨i, hleave⟩
    rw [hgo] at hleave ⊢
    refine ⟨traceFlag (currentAt top (f₀.above.length + 13)) s₁.cpu.core.mem, fun _ => ?_, ?_⟩
    · exact ⟨s₁.cpu.core.mem, ⟨s₁, Machine.executes_of_run hrun after, hcalls, rfl⟩, rfl⟩
    · exact holds_traceBranch hconv hlt _ s₂ hs₂ after (Nat.le_refl _) i hleave
  · refine ⟨false, fun h => absurd h hlt, ?_⟩
    exact holds_systemCall_bad hconv horig hlt false _ hentered ticks (Nat.le_refl _) i hleave

end Path

/-- A system call, from `int $0x80` to `iret`, with interrupts wherever they are on: the frame
that is reloaded is the one that the calls of `system_call`, which the number and the trace flag
of the task decide, and of the way back have left. The flag is the one that `testb` finds. -/
theorem system_call_returns (nrSyscalls kernelDs top : UInt32) (o : Outside Symbol)
    (hconv : Convention o) (f : Frame) (horig : f.origEax = f.eax) (c : Cpu)
    (hentry : Interrupted f [] top c) (ticks : List (Option (UInt32 → UInt8))) (i : Instr)
    (hleave : (machine nrSyscalls kernelDs o).Leaves ((machine nrSyscalls kernelDs o).run
      ⟨goto (.path .systemCall) (listing nrSyscalls kernelDs o.address), ⟨c, []⟩⟩ ticks) i) :
    Exits o (Since o kernelDs
        (TaskCalls o nrSyscalls kernelDs (currentAt top (f.above.length + 13))
          (Found nrSyscalls kernelDs o
            ⟨goto (.path .systemCall) (listing nrSyscalls kernelDs o.address), ⟨c, []⟩⟩ ticks
            testTrace) f)
        (ReturnCalls (currentAt top (f.above.length + 13)))) i
      ((machine nrSyscalls kernelDs o).run
        ⟨goto (.path .systemCall) (listing nrSyscalls kernelDs o.address), ⟨c, []⟩⟩
        ticks).state := by
  obtain ⟨trace, htrace, hexits⟩ := exits_systemCall hconv horig hentry rfl hleave
  refine Exits.mono (Since.mono ?_) i _ hexits
  intro calls g hcalls
  exact ⟨trace, htrace, hcalls⟩

theorem system_call_returns_getpid :
    Exits idleOutside (Since idleOutside 0x18
        (TaskCalls idleOutside 270 0x18 (currentAt 0xc0002000 15)
          (Found 270 0x18 idleOutside
            ⟨goto (.path .systemCall) (listing 270 0x18 idleOutside.address),
              ⟨getpidFrame.enter [], []⟩⟩ (List.replicate 100 none) testTrace) getpidFrame)
        (ReturnCalls (currentAt 0xc0002000 15)))
      (.iret (.six .restoreAll))
      ((machine 270 0x18 idleOutside).run
        ⟨goto (.path .systemCall) (listing 270 0x18 idleOutside.address),
          ⟨getpidFrame.enter [], []⟩⟩ (List.replicate 100 none)).state :=
  system_call_returns 270 0x18 0xc0002000 idleOutside convention_idleOutside getpidFrame rfl
    (getpidFrame.enter []) (getpidFrame.interrupted_enter []) (List.replicate 100 none)
    (.iret (.six .restoreAll)) (leaves_of_fixupOf (by decide +kernel) rfl)

end Entry
