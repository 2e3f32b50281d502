import LinuxDriver.EntrySystemCall

/-!
# What a trap leaves to the code it interrupts

When the code that is called leaves the frame as it finds it, an exception cannot be seen: the
registers and the stack at `iret` are those of the interrupted code. A system call changes
`%eax` and nothing else.
-/

open I386 Assembly

namespace Entry

structure Transparent (o : Outside Symbol) : Prop extends Convention o where
  frame : ∀ t c args (f : Frame), c.core.stack = args ++ f.words → args.length = argWords t →
    ∃ args' : List UInt32, (o.env t c).core.stack = args' ++ f.words ∧
      args'.length = args.length

theorem transparent_idleOutside : Transparent idleOutside where
  toConvention := convention_idleOutside
  frame t c args _ hstack _ := ⟨args, (idleOutside_stack t c).trans hstack, rfl⟩

section Linked

variable {o : Outside Symbol} {kernelDs t : UInt32} {f g h : Frame} {intr : Bool}
  {mem : UInt32 → UInt8} {calls : List (TrapCall Symbol)} {c : TrapCall Symbol}

theorem Linked.last (hlinked : Linked o kernelDs f (calls ++ [c]) h) : ∃ g h' : Frame,
    Linked o kernelDs f calls g ∧ c.after = o.env c.callee c.before ∧
      c.before.core.stack.drop (argWords c.callee) = g.words ∧
      c.after.core.stack.drop (frameAt c.callee c.after) = h'.words ∧ h = stored c h' := by
  generalize hall : calls ++ [c] = all at hlinked
  cases hlinked with
  | refl => exact absurd hall (List.append_ne_nil_of_right_ne_nil calls (List.cons_ne_nil c []))
  | @call g h' calls' c' hcalls hcall hsegments hbefore hafter =>
      obtain ⟨rfl, hc⟩ := List.append_inj' hall rfl
      cases hc
      exact ⟨g, h', hcalls, hcall, hbefore, hafter, rfl⟩

theorem Linked.only (hlinked : Linked o kernelDs f [c] h) : ∃ g h' : Frame,
    Linked o kernelDs f [] g ∧ c.after = o.env c.callee c.before ∧
      c.before.core.stack.drop (argWords c.callee) = g.words ∧
      c.after.core.stack.drop (frameAt c.callee c.after) = h'.words ∧ h = stored c h' :=
  Linked.last (by rwa [List.nil_append])

theorem Transparent.call (htrans : Transparent o) (hcall : c.after = o.env c.callee c.before)
    (hbefore : c.before.core.stack.drop (argWords c.callee) = g.words)
    (hafter : c.after.core.stack.drop (frameAt c.callee c.after) = h.words)
    (hv86 : c.callee ≠ named .saveV86State) : h = g := by
  have hlen : (c.before.core.stack.take (argWords c.callee)).length = argWords c.callee := by
    have hpos : 0 < (c.before.core.stack.drop (argWords c.callee)).length := by
      rw [hbefore]
      exact Nat.succ_pos _
    rw [List.length_drop] at hpos
    rw [List.length_take]
    omega
  obtain ⟨args, hstack, hargs⟩ := htrans.frame c.callee c.before
    (c.before.core.stack.take (argWords c.callee)) g
    (by rw [← hbefore, List.take_append_drop]) hlen
  rw [frameAt, if_neg hv86, hcall, hstack, ← hlen, ← hargs, List.drop_left] at hafter
  exact (Frame.words_injective hafter).symm

/-- A call whose result is not stored, and that does not look for another frame. -/
def Plain (c : TrapCall Symbol) : Prop := ∃ g, g ≠ .saveV86State ∧ c.callee = named g

theorem plain_path {s : SystemCall.Symbol} (hc : c.callee = named (.path s)) : Plain c :=
  ⟨.path s, nofun, hc⟩

theorem tableSlot_ne (number : UInt32) (s : Symbol) : tableSlot number ≠ named s := nofun

theorem Transparent.linked (htrans : Transparent o) (hlinked : Linked o kernelDs f calls g)
    (hplain : ∀ c ∈ calls, Plain c) : g = f := by
  induction hlinked with
  | refl => rfl
  | @call g h calls c hcalls hcall hsegments hbefore hafter ih =>
      obtain ⟨s, hs, hc⟩ := hplain c (List.mem_append_right _ List.mem_cons_self)
      have hh : h = g := by
        refine htrans.call hcall hbefore hafter ?_
        rw [hc]
        intro heq
        cases heq
        exact hs rfl
      have hg : g = f := ih fun d hd => hplain d (List.mem_append_left _ hd)
      rw [stored, hc, hh, hg]
      rfl

theorem Scheduled.plain (hcalls : Scheduled calls) : ∀ c ∈ calls, Plain c :=
  fun c hc => ⟨.schedule, nofun, hcalls c hc⟩

/-- The way back leaves the frame that it finds, in a frame of code outside VM86 mode. -/
theorem Transparent.returnCalls (htrans : Transparent o) (hvm : f.eflags &&& VM_MASK = 0)
    (hlinked : Linked o kernelDs f calls g) (hcalls : ReturnCalls t intr mem calls) : g = f := by
  obtain ⟨scheds, tail, rfl, hscheds, htail⟩ := hcalls
  have hsched : ∀ c ∈ scheds, Plain c := Scheduled.plain hscheds
  rcases htail with ⟨rfl, -⟩ | hsignal
  · rw [List.append_nil] at hlinked
    exact htrans.linked hlinked hsched
  cases hsignal with
  | @signal c hc hbefore hregs hset =>
      refine htrans.linked hlinked fun d hd => ?_
      rcases List.mem_append.1 hd with hd | hd
      · exact hsched d hd
      · rw [List.mem_singleton.1 hd]
        exact ⟨.doSignal, nofun, hc⟩
  | @v86 c d hc hbefore hregs hd hset =>
      -- `save_v86_state` would have been called for a frame with the VM flag
      rw [← List.singleton_append, ← List.append_assoc] at hlinked
      obtain ⟨g₁, -, hlinked, -⟩ := hlinked.last
      obtain ⟨g₂, -, hlinked, -, hframe, -⟩ := hlinked.last
      rw [htrans.linked hlinked hsched, hc] at hframe
      refine absurd ?_ hbefore
      change c.before.core.stack = f.words at hframe
      rw [State.frame, hframe]
      exact hvm

theorem SignalCalls.by_name (hcalls : SignalCalls calls) :
    ∀ c ∈ calls, ∃ s, c.callee = named s := by
  cases hcalls with
  | @signal c hc _ _ _ =>
      intro d hd
      rw [List.mem_singleton.1 hd]
      exact ⟨_, hc⟩
  | @v86 c d hc _ _ hd _ =>
      intro e he
      rcases List.mem_cons.1 he with rfl | he
      · exact ⟨_, hc⟩
      · rw [List.mem_singleton.1 he]
        exact ⟨_, hd⟩

theorem ReturnCalls.by_name (hcalls : ReturnCalls t intr mem calls) :
    ∀ c ∈ calls, ∃ s, c.callee = named s := by
  obtain ⟨scheds, tail, rfl, hscheds, htail⟩ := hcalls
  intro c hc
  rcases List.mem_append.1 hc with hc | hc
  · exact ⟨_, hscheds c hc⟩
  rcases htail with ⟨rfl, -⟩ | hsignal
  · exact absurd hc List.not_mem_nil
  · exact hsignal.by_name c hc

end Linked

section Runs

variable {nrSyscalls kernelDs top : UInt32} {o : Outside Symbol} {f : Frame}

theorem Transparent.calledOnce (htrans : Transparent o) {addr : UInt32}
    {args : UInt32 → List UInt32} {calls : List (TrapCall Symbol)} {g : Frame}
    (h : CalledOnce o kernelDs f (.address addr) args calls g) : g = f := by
  obtain ⟨c, rfl, hc, -, hlinked⟩ := h
  obtain ⟨g₁, h', hnil, hcall, hbefore, hafter, rfl⟩ := hlinked.only
  have hg : g₁ = f := htrans.linked hnil fun _ hd => absurd hd List.not_mem_nil
  have hh : h' = g₁ := by
    refine htrans.call hcall hbefore hafter ?_
    rw [hc]
    exact nofun
  rw [stored, hc, hh, hg]

/-- The calls that `system_call` makes leave the frame with the result in `%eax`: that of the
one call through the table, or `-ENOSYS`. -/
theorem Transparent.systemCalls (htrans : Transparent o) (horig : f.origEax = f.eax)
    {trace : Bool} {calls : List (TrapCall Symbol)} {g : Frame}
    (h : SystemCalls o nrSyscalls kernelDs trace f calls g) :
    (¬ f.eax < nrSyscalls ∧ g = f.failed ∧ ∀ c ∈ calls, Plain c) ∨
      f.eax < nrSyscalls ∧ ∃ before c after, calls = before ++ c :: after ∧
        c.callee = tableSlot f.eax ∧ g = { f with eax := c.after.core.reg .eax } ∧
        ∀ d ∈ before ++ after, Plain d := by
  have hslot : ∀ {g h : Frame} {c : TrapCall Symbol} {number : UInt32},
      c.callee = tableSlot number → Linked o kernelDs g [c] h →
        h = { g with eax := c.after.core.reg .eax } := by
    intro g h c number hc hlinked
    obtain ⟨g₁, h', hnil, hcall, hbefore, hafter, rfl⟩ := hlinked.only
    have hg : g₁ = g := htrans.linked hnil fun _ hd => absurd hd List.not_mem_nil
    have hh : h' = g₁ := by
      refine htrans.call hcall hbefore hafter ?_
      rw [hc]
      exact tableSlot_ne number .saveV86State
    rw [stored, hc, hh, hg]
    rfl
  have hone : ∀ {g h : Frame} {c : TrapCall Symbol}, Plain c → Linked o kernelDs g [c] h →
      h = g := by
    intro g h c hc hlinked
    refine htrans.linked hlinked fun d hd => ?_
    rwa [List.mem_singleton.1 hd]
  cases h with
  | bad hnum => exact Or.inl ⟨hnum, rfl, fun _ hd => absurd hd List.not_mem_nil⟩
  | @plain c g hnum htrace hc hlinked hlist =>
      exact Or.inr ⟨hnum, [], c, [], rfl, hc, hslot hc hlinked,
        fun _ hd => absurd hd List.not_mem_nil⟩
  | @audited c a g h hnum htrace hc hlinked hlist ha hargs haudit =>
      have hplain : Plain a := plain_path ha
      refine Or.inr ⟨hnum, [], c, [a], rfl, hc, ?_, ?_⟩
      · rw [hone hplain haudit, hslot hc hlinked]
      · intro d hd
        rwa [List.mem_singleton.1 hd]
  | @traced b c d g h k hnum htrace hb hbefore hlt hc hcall hd hafter =>
      have hplainb : Plain b := plain_path hb
      have hplaind : Plain d := plain_path hd
      have hg : g = f.failed := hone hplainb hbefore
      have hnumber : g.origEax = f.eax := by
        rw [hg]
        exact horig
      refine Or.inr ⟨hnum, [b], c, [d], rfl, ?_, ?_, ?_⟩
      · rw [hc, hnumber]
      · rw [hone hplaind hafter, hslot hc hcall, hg]
        rfl
      · intro e he
        rcases List.mem_cons.1 he with rfl | he
        · exact hplainb
        · rwa [List.mem_singleton.1 he]
  | @refused b d g k hnum htrace hb hbefore hge hd hafter =>
      have hg : g = f.failed := hone (plain_path hb) hbefore
      refine absurd hnum ?_
      rw [← horig]
      rw [hg] at hge
      exact hge

end Runs

/-- An exception whose handler leaves the frame cannot be seen by the code it interrupts: the
frame reloaded is the one that was interrupted, and in kernel code nothing but the handler has
been called. -/
theorem exception_transparent (nrSyscalls kernelDs top code : UInt32) (o : Outside Symbol)
    (htrans : Transparent o) (e : Exception) (f : Frame) (horig : f.origEax = -1)
    (hvm : f.eflags &&& VM_MASK = 0) (c : Cpu) (hentry : Interrupted f (errorWords e code) top c)
    (ticks : List (Option (UInt32 → UInt8))) (i : Instr)
    (hleave : (machine nrSyscalls kernelDs o).Leaves ((machine nrSyscalls kernelDs o).run
      ⟨goto (.trap e) (listing nrSyscalls kernelDs o.address), ⟨c, []⟩⟩ ticks) i) :
    Exits o (fun g _ _ calls => g = f ∧ (f.user = false →
        ∃ d, calls = [d] ∧ d.callee = .address (o.address (.handler e)))) i
      ((machine nrSyscalls kernelDs o).run
        ⟨goto (.trap e) (listing nrSyscalls kernelDs o.address), ⟨c, []⟩⟩ ticks).state := by
  have hconv : Convention o := htrans.toConvention
  refine Exits.mono ?_ i _ (holds_trap hconv horig e ⟨c, []⟩ ⟨f, ⟨rfl, hentry⟩, rfl⟩ ticks
    (Nat.le_refl _) i hleave)
  intro g intr mem calls hfinished
  rcases hfinished with ⟨-, hcalled⟩ | ⟨before, g₁, after, rfl, ⟨huser, hcalled⟩, hlinked, hafter⟩
  · refine ⟨htrans.calledOnce hcalled, fun _ => ?_⟩
    obtain ⟨d, hd, hcallee, -⟩ := hcalled
    exact ⟨d, hd, hcallee⟩
  · have hg₁ : g₁ = f := htrans.calledOnce hcalled
    subst hg₁
    refine ⟨htrans.returnCalls hvm hlinked hafter, fun hkernel => ?_⟩
    rw [hkernel] at huser
    cases huser

def divideFrame : Frame := { faultFrame with cs := 0x10, ds := 0x18, es := 0x18 }

theorem exception_transparent_divideError :
    Exits idleOutside (fun g _ _ calls => g = divideFrame ∧ (divideFrame.user = false →
        ∃ d, calls = [d] ∧ d.callee = .address 0xc0100000))
      (.iret (.six .restoreAll))
      ((machine 270 0x18 idleOutside).run
        ⟨goto (.trap .divideError) (listing 270 0x18 idleOutside.address),
          ⟨divideFrame.enter [], []⟩⟩ (List.replicate 60 none)).state :=
  exception_transparent 270 0x18 0xc0002000 0 idleOutside transparent_idleOutside .divideError
    divideFrame rfl rfl (divideFrame.enter []) (divideFrame.interrupted_enter [])
    (List.replicate 60 none) (.iret (.six .restoreAll)) (leaves_of_fixupOf (by decide +kernel) rfl)

/-- Every call of a system call leaves the frame: then the task finds its registers as they were,
but for `%eax`, which holds what the one call through the table returned, or `-ENOSYS`. -/
theorem system_call_transparent (nrSyscalls kernelDs top : UInt32) (o : Outside Symbol)
    (htrans : Transparent o) (f : Frame) (horig : f.origEax = f.eax)
    (hvm : f.eflags &&& VM_MASK = 0) (c : Cpu) (hentry : Interrupted f [] top c)
    (ticks : List (Option (UInt32 → UInt8))) (i : Instr)
    (hleave : (machine nrSyscalls kernelDs o).Leaves ((machine nrSyscalls kernelDs o).run
      ⟨goto (.path .systemCall) (listing nrSyscalls kernelDs o.address), ⟨c, []⟩⟩ ticks) i) :
    Exits o (fun g _ _ calls =>
        ¬ f.eax < nrSyscalls ∧ g = { f with eax := -SystemCall.enosys } ∨
        f.eax < nrSyscalls ∧ ∃ before d after, calls = before ++ d :: after ∧
          d.callee = tableSlot f.eax ∧ g = { f with eax := d.after.core.reg .eax } ∧
          ∀ e ∈ before ++ after, ∃ s, e.callee = named s) i
      ((machine nrSyscalls kernelDs o).run
        ⟨goto (.path .systemCall) (listing nrSyscalls kernelDs o.address), ⟨c, []⟩⟩
        ticks).state := by
  have hconv : Convention o := htrans.toConvention
  obtain ⟨trace, -, hexits⟩ := exits_systemCall hconv horig hentry rfl hleave
  refine Exits.mono ?_ i _ hexits
  rintro g intr mem calls ⟨front, g₁, back, rfl, hsystem, hlinked, hback⟩
  rcases htrans.systemCalls horig hsystem with
    ⟨hnum, hg₁, -⟩ | ⟨hnum, before, d, after, rfl, hd, hg₁, hplain⟩
  · have hvm₁ : g₁.eflags &&& VM_MASK = 0 := by rwa [hg₁]
    exact Or.inl ⟨hnum, (htrans.returnCalls hvm₁ hlinked hback).trans hg₁⟩
  · have hvm₁ : g₁.eflags &&& VM_MASK = 0 := by rwa [hg₁]
    refine Or.inr ⟨hnum, before, d, after ++ back, by rw [List.append_assoc, List.cons_append],
      hd, (htrans.returnCalls hvm₁ hlinked hback).trans hg₁, ?_⟩
    intro e he
    rw [← List.append_assoc] at he
    rcases List.mem_append.1 he with he | he
    · obtain ⟨s, -, hs⟩ := hplain e he
      exact ⟨s, hs⟩
    · exact hback.by_name e he

theorem system_call_transparent_getpid :
    Exits idleOutside (fun g _ _ calls =>
        ¬ getpidFrame.eax < 270 ∧ g = { getpidFrame with eax := -SystemCall.enosys } ∨
        getpidFrame.eax < 270 ∧ ∃ before d after, calls = before ++ d :: after ∧
          d.callee = tableSlot getpidFrame.eax ∧
          g = { getpidFrame with eax := d.after.core.reg .eax } ∧
          ∀ e ∈ before ++ after, ∃ s, e.callee = named s)
      (.iret (.six .restoreAll))
      ((machine 270 0x18 idleOutside).run
        ⟨goto (.path .systemCall) (listing 270 0x18 idleOutside.address),
          ⟨getpidFrame.enter [], []⟩⟩ (List.replicate 100 none)).state :=
  system_call_transparent 270 0x18 0xc0002000 idleOutside transparent_idleOutside getpidFrame rfl
    rfl (getpidFrame.enter []) (getpidFrame.interrupted_enter []) (List.replicate 100 none)
    (.iret (.six .restoreAll)) (leaves_of_fixupOf (by decide +kernel) rfl)

end Entry
