import LinuxDriver.EntryReturn

/-!
# Every way into the kernel leads out

From any label of the listing, in any state, a run without interrupts comes to `iret` or to
`do_exit`, unless the scheduler is called without end. Only two jumps go back: from the fixup
of a segment load, which then loads 0, and from the scheduler to `ret_from_sys_call`.
-/

open I386 Assembly

namespace I386

variable {Label Sym : Type*}

/-- The labels that control may go to. -/
def TrapInstr.targets : TrapInstr Label Sym → List Label
  | .core (.je l) => [l]
  | .core (.jne l) => [l]
  | .core (.jae l) => [l]
  | .core (.jmp l) => [l]
  | .poplSeg _ fixup => [fixup]
  | .iret fixup => [fixup]
  | _ => []

/-- Control never goes on to the next line. -/
def TrapInstr.stops : TrapInstr Label Sym → Bool
  | .core (.jmp _) | .callNoReturn _ | .iret _ => true
  | _ => false

variable {o : Outside Sym} {i : TrapInstr Label Sym}

theorem TrapState.jumpIf_cases (s : TrapState Sym) (taken : Bool) (l : Label) :
    s.jumpIf taken l = .next s ∨ s.jumpIf taken l = .jump l s := by
  cases taken with
  | false => exact Or.inl rfl
  | true => exact Or.inr rfl

theorem TrapState.exec_cases (s : TrapState Sym) :
    (∃ s', s.exec o i = .next s') ∨ (∃ l ∈ i.targets, ∃ s', s.exec o i = .jump l s') ∨
      s.exec o i = .leave := by
  have hjump : ∀ taken l, i.targets = [l] → s.exec o i = s.jumpIf taken l →
      (∃ s', s.exec o i = .next s') ∨ (∃ l ∈ i.targets, ∃ s', s.exec o i = .jump l s') ∨
        s.exec o i = .leave := by
    intro taken l htargets hexec
    rw [hexec, htargets]
    rcases s.jumpIf_cases taken l with h | h
    · exact Or.inl ⟨s, h⟩
    · exact Or.inr (Or.inl ⟨l, List.mem_singleton_self l, s, h⟩)
  cases i with
  | core i => cases i with
    | je l => exact hjump _ l rfl rfl
    | jne l => exact hjump _ l rfl rfl
    | jae l => exact hjump _ l rfl rfl
    | jmp l => exact Or.inr (Or.inl ⟨l, List.mem_singleton_self l, s, rfl⟩)
    | _ => exact Or.inl ⟨_, rfl⟩
  | poplSeg dst fixup =>
      rw [TrapState.exec]
      cases o.loads (s.cpu.core.frame 0) with
      | true => exact Or.inl ⟨_, rfl⟩
      | false => exact Or.inr (Or.inl ⟨fixup, List.mem_singleton_self fixup, s, rfl⟩)
  | iret fixup =>
      rw [TrapState.exec]
      cases o.returns s.cpu with
      | true => exact Or.inr (Or.inr rfl)
      | false => exact Or.inr (Or.inl ⟨fixup, List.mem_singleton_self fixup, s, rfl⟩)
  | callNoReturn f => exact Or.inr (Or.inr rfl)
  | _ => exact Or.inl ⟨_, rfl⟩

theorem TrapState.exec_ne_next (hi : i.stops = true) (s s' : TrapState Sym) :
    s.exec o i ≠ .next s' := by
  intro hnext
  cases i with
  | core i => cases i with
    | jmp l => cases hnext
    | _ => contradiction
  | iret fixup =>
      rw [TrapState.exec] at hnext
      cases hreturns : o.returns s.cpu with
      | true =>
          rw [hreturns] at hnext
          cases hnext
      | false =>
          rw [hreturns] at hnext
          cases hnext
  | callNoReturn f => cases hnext
  | _ => contradiction

end I386

namespace Entry

/-- How often the scheduler has been called. -/
def schedules (calls : List (TrapCall Symbol)) : ℕ :=
  calls.countP fun c => c.callee = named .schedule

theorem schedules_append {calls : List (TrapCall Symbol)} {c : TrapCall Symbol}
    (hc : c.callee = named .schedule) : schedules (calls ++ [c]) = schedules calls + 1 := by
  rw [schedules, List.countP_append, List.countP_singleton, hc]
  rfl

/-- A run from label `l` leaves the listing, unless it calls the scheduler `N` times. -/
def EndsAt (nrSyscalls kernelDs : UInt32) (o : Outside Symbol) (N : ℕ) (l : Label) : Prop :=
  (machine nrSyscalls kernelDs o).Ends (fun s => N ≤ schedules s.calls) (fun _ => True)
    (goto l (listing nrSyscalls kernelDs o.address))

section Blocks

variable {nrSyscalls kernelDs : UInt32} {o : Outside Symbol} {N k : ℕ} {l l' : Label}
  {is is' : List Instr} {R P P' : TrapState Symbol → Prop} {i : Instr}
  {rest rest' : List (Assembly.Line Label Instr)}

theorem ends_of_targets (done : List Label)
    (htargets : (is.flatMap TrapInstr.targets).all (done.contains ·) = true)
    (hdone : ∀ l ∈ done, EndsAt nrSyscalls kernelDs o N l) {i : Instr} (hi : i ∈ is) {l : Label}
    (hl : l ∈ i.targets) : EndsAt nrSyscalls kernelDs o N l := by
  have hmem := List.all_eq_true.1 htargets l (List.mem_flatMap.2 ⟨i, hi, hl⟩)
  exact hdone l (List.contains_iff_mem.1 hmem)

/-- A block with an unconditional jump ends when what it jumps to does. -/
theorem ends_closed (done : List Label)
    (h : (blocks nrSyscalls kernelDs o.address)[k]? = some (l, is))
    (hstops : is.any TrapInstr.stops = true)
    (htargets : (is.flatMap TrapInstr.targets).all (done.contains ·) = true)
    (hdone : ∀ l ∈ done, EndsAt nrSyscalls kernelDs o N l) :
    EndsAt nrSyscalls kernelDs o N l := by
  obtain ⟨rest, hcode⟩ := goto_block nrSyscalls kernelDs o.address h
  obtain ⟨i, hi, hstop⟩ := List.any_eq_true.1 hstops
  unfold EndsAt
  rw [hcode]
  exact Machine.Ends.label (Machine.Ends.block TrapInstr.targets is
    (fun _ _ s => s.exec_cases) (fun _ hi _ hl => ends_of_targets done htargets hdone hi hl)
    (Or.inl ⟨i, hi, fun s s' => s.exec_ne_next hstop s'⟩))

/-- A block that falls through to the next label. -/
theorem ends_through (done : List Label)
    (h : (blocks nrSyscalls kernelDs o.address)[k]? = some (l, is))
    (h' : (blocks nrSyscalls kernelDs o.address)[k + 1]? = some (l', is'))
    (htargets : (is.flatMap TrapInstr.targets).all (done.contains ·) = true)
    (hdone : ∀ l ∈ done, EndsAt nrSyscalls kernelDs o N l)
    (hnext : EndsAt nrSyscalls kernelDs o N l') : EndsAt nrSyscalls kernelDs o N l := by
  have hcode := goto_next nrSyscalls kernelDs o.address h h'
  unfold EndsAt
  rw [hcode]
  exact Machine.Ends.label (Machine.Ends.block TrapInstr.targets is
    (fun _ _ s => s.exec_cases) (fun _ hi _ hl => ends_of_targets done htargets hdone hi hl)
    (Or.inr hnext))

theorem ends_instr (hjump : ∀ l ∈ i.targets, EndsAt nrSyscalls kernelDs o N l)
    (hrest : (machine nrSyscalls kernelDs o).Ends (fun s => N ≤ schedules s.calls)
      (fun _ => True) rest) :
    (machine nrSyscalls kernelDs o).Ends (fun s => N ≤ schedules s.calls) (fun _ => True)
      (.instr i :: rest) := by
  refine Machine.Ends.block TrapInstr.targets [i] (fun _ _ s => s.exec_cases) ?_ (Or.inr hrest)
  intro j hj l hl
  rw [List.mem_singleton.1 hj] at hl
  exact hjump l hl

theorem ends_next (P' : TrapState Symbol → Prop)
    (hexec : ∀ s : TrapState Symbol, P s → ∃ s', s.exec o i = .next s' ∧ P' s')
    (hnext : (machine nrSyscalls kernelDs o).Ends R P' rest) :
    (machine nrSyscalls kernelDs o).Ends R P (.instr i :: rest) :=
  Machine.Ends.instr P' (J := fun _ _ => False) (fun s hs => Or.inl (hexec s hs)) hnext
    fun _ _ hs => hs.elim

theorem ends_jump (hgoto : (machine nrSyscalls kernelDs o).Ends R P
      (goto l (listing nrSyscalls kernelDs o.address))) :
    (machine nrSyscalls kernelDs o).Ends R P (.instr (.core (.jmp l)) :: rest) := by
  refine Machine.Ends.instr (fun _ => False) (J := fun l' s => l' = l ∧ P s)
    (fun s hs => Or.inr (Or.inl ⟨l, s, rfl, rfl, hs⟩)) (fun _ hs => hs.elim) ?_
  rintro _ s ⟨rfl, hs⟩
  exact hgoto s hs

end Blocks

section Labels

variable {nrSyscalls kernelDs : UInt32} {o : Outside Symbol} {N : ℕ}

/-- A segment load that faults is tried once more, with 0. -/
theorem ends_segment (hnull : o.loads 0 = true) {l fix : Label} {dst : Reg}
    {rest rest' : List (Assembly.Line Label Instr)}
    (hcode : goto l (listing nrSyscalls kernelDs o.address) =
      .label l :: .instr (.poplSeg dst fix) :: rest)
    (hfix : goto fix (listing nrSyscalls kernelDs o.address) =
      .label fix :: .instr (.core (.movl (.imm 0) (.frame 0))) :: .instr (.core (.jmp l)) :: rest')
    (hrest : (machine nrSyscalls kernelDs o).Ends (fun s => N ≤ schedules s.calls)
      (fun _ => True) rest) :
    EndsAt nrSyscalls kernelDs o N l ∧ EndsAt nrSyscalls kernelDs o N fix := by
  have hagain : (machine nrSyscalls kernelDs o).Ends (fun s => N ≤ schedules s.calls)
      (fun s => s.cpu.core.frame 0 = 0) (goto l (listing nrSyscalls kernelDs o.address)) := by
    rw [hcode]
    refine Machine.Ends.label (ends_next (fun _ => True) ?_ hrest)
    intro s hzero
    refine ⟨s.step (.core (.popl dst) : Instr), ?_, trivial⟩
    rw [TrapState.exec, hzero, hnull]
    exact if_pos rfl
  have hfixed : EndsAt nrSyscalls kernelDs o N fix := by
    unfold EndsAt
    rw [hfix]
    refine Machine.Ends.label (ends_next _ ?_ (ends_jump hagain))
    intro s _
    refine ⟨_, rfl, ?_⟩
    obtain ⟨⟨⟨reg, stack, top, mem, flags⟩, eflags, intr, cr0, ss⟩, calls⟩ := s
    cases stack <;> rfl
  refine ⟨?_, hfixed⟩
  unfold EndsAt
  rw [hcode]
  refine Machine.Ends.label (ends_instr ?_ hrest)
  intro l' hl'
  rw [TrapInstr.targets, List.mem_singleton] at hl'
  rw [hl']
  exact hfixed

theorem ends_six (p : Site) : EndsAt nrSyscalls kernelDs o N (.six p) := by
  cases p with
  | restoreAll => exact ends_closed (k := 45) [] rfl rfl rfl nofun
  | nmi => exact ends_closed (k := 48) [] rfl rfl rfl nofun

theorem ends_three (p : Site) : EndsAt nrSyscalls kernelDs o N (.three p) := by
  have hsix : ∀ l ∈ [.six p], EndsAt nrSyscalls kernelDs o N l := by
    simpa using ends_six p
  cases p with
  | restoreAll => exact ends_closed (k := 8) [.six .restoreAll] rfl rfl rfl hsix
  | nmi => exact ends_closed (k := 28) [.six .nmi] rfl rfl rfl hsix

theorem ends_two (hnull : o.loads 0 = true) (p : Site) :
    EndsAt nrSyscalls kernelDs o N (.two p) ∧ EndsAt nrSyscalls kernelDs o N (.five p) := by
  obtain ⟨-, rest, -, -, hfive, -⟩ := goto_fixup nrSyscalls kernelDs o.address p
  exact ends_segment hnull (goto_two nrSyscalls kernelDs o.address p) hfive
    (ends_next _ (fun s _ => ⟨s.step (.addlEsp 4 : Instr), rfl, trivial⟩) (ends_three p))

theorem ends_one (hnull : o.loads 0 = true) (p : Site) :
    EndsAt nrSyscalls kernelDs o N (.one p) ∧ EndsAt nrSyscalls kernelDs o N (.four p) := by
  obtain ⟨rest, -, -, hfour, -, -⟩ := goto_fixup nrSyscalls kernelDs o.address p
  exact ends_segment hnull (goto_one nrSyscalls kernelDs o.address p) hfour (ends_two hnull p).1

theorem ends_restoreAll (hnull : o.loads 0 = true) :
    EndsAt nrSyscalls kernelDs o N .restoreAll :=
  ends_through (k := 5) [] rfl rfl rfl nofun (ends_one hnull .restoreAll).1

theorem ends_v86SignalReturn (hnull : o.loads 0 = true) :
    EndsAt nrSyscalls kernelDs o N .v86SignalReturn := by
  refine ends_closed (k := 10) [.restoreAll] rfl rfl rfl ?_
  simpa using ends_restoreAll hnull

theorem ends_signalReturn (hnull : o.loads 0 = true) :
    EndsAt nrSyscalls kernelDs o N .signalReturn := by
  refine ends_closed (k := 9) [.v86SignalReturn, .restoreAll] rfl rfl rfl ?_
  simpa using ⟨ends_v86SignalReturn hnull, ends_restoreAll hnull⟩

/-- Each time round its loop, `ret_from_sys_call` calls the scheduler. -/
theorem ends_scheduled (hnull : o.loads 0 = true) (j : ℕ) :
    (machine nrSyscalls kernelDs o).Ends (fun s => N ≤ schedules s.calls)
      (fun s => N ≤ schedules s.calls + j)
      (goto (.path .retFromSysCall) (listing nrSyscalls kernelDs o.address)) := by
  induction j with
  | zero => exact Machine.Ends.here fun s hs => hs
  | succ j ih =>
      obtain ⟨rest, hresched⟩ := goto_reschedule nrSyscalls kernelDs o.address
      have hcall : (machine nrSyscalls kernelDs o).Ends (fun s => N ≤ schedules s.calls)
          (fun s => N ≤ schedules s.calls + (j + 1))
          (goto .reschedule (listing nrSyscalls kernelDs o.address)) := by
        rw [hresched]
        refine Machine.Ends.label (ends_next _ ?_ (ends_jump ih))
        intro s hs
        refine ⟨s.call o (named .schedule), rfl, ?_⟩
        change N ≤ schedules (s.calls ++ [⟨named .schedule, s.cpu, _⟩]) + j
        rw [schedules_append rfl]
        omega
      have hsignal : ∀ l ∈ [Label.signalReturn], EndsAt nrSyscalls kernelDs o N l := by
        simpa using ends_signalReturn hnull
      rw [goto_retFromSysCall]
      let P : TrapState Symbol → Prop := fun s => N ≤ schedules s.calls + (j + 1)
      refine Machine.Ends.label (ends_next P (fun s hs => ⟨_, rfl, hs⟩)
        (ends_next P (fun s hs => ⟨_, rfl, hs⟩) (Machine.Ends.instr (fun _ => True)
          (J := fun l s => l = .reschedule ∧ N ≤ schedules s.calls + (j + 1)) ?_ ?_ ?_)))
      · intro s hs
        rcases s.jumpIf_cases (!s.cpu.core.flags.zf) Label.reschedule with h | h
        · exact Or.inl ⟨s, h, trivial⟩
        · exact Or.inr (Or.inl ⟨_, s, h, rfl, hs⟩)
      · exact ends_instr nofun (ends_instr hsignal (ends_restoreAll hnull))
      · rintro _ s ⟨rfl, hs⟩
        exact hcall s hs

theorem ends_retFromSysCall (hnull : o.loads 0 = true) :
    EndsAt nrSyscalls kernelDs o N (.path .retFromSysCall) :=
  (ends_scheduled hnull N).weaken fun _ _ => Nat.le_add_left N _

theorem ends_retFromException (hnull : o.loads 0 = true) :
    EndsAt nrSyscalls kernelDs o N .retFromException := by
  refine ends_closed (k := 16) [.path .retFromSysCall, .restoreAll] rfl rfl rfl ?_
  simpa using ⟨ends_retFromSysCall hnull, ends_restoreAll hnull⟩

/-- The blocks that only come to `ret_from_sys_call`. -/
theorem ends_of_ret (hnull : o.loads 0 = true) {k : ℕ} {l : Label} {is : List Instr}
    (h : (blocks nrSyscalls kernelDs o.address)[k]? = some (l, is))
    (hstops : is.any TrapInstr.stops = true)
    (htargets : (is.flatMap TrapInstr.targets).all ([Label.path .retFromSysCall].contains ·)
      = true) : EndsAt nrSyscalls kernelDs o N l := by
  refine ends_closed [.path .retFromSysCall] h hstops htargets ?_
  simpa using ends_retFromSysCall hnull

set_option maxRecDepth 2000 in
theorem ends_path (hnull : o.loads 0 = true) (l : SystemCall.Label) :
    EndsAt nrSyscalls kernelDs o N (.path l) := by
  have hret : EndsAt nrSyscalls kernelDs o N (.path .retFromSysCall) := ends_retFromSysCall hnull
  have haudit : EndsAt nrSyscalls kernelDs o N (.path .auditsys) :=
    ends_of_ret (k := 11) hnull rfl rfl rfl
  have hexit : EndsAt nrSyscalls kernelDs o N (.path .tracesysExit) :=
    ends_of_ret (k := 13) hnull rfl rfl rfl
  have hbad : EndsAt nrSyscalls kernelDs o N (.path .badsys) :=
    ends_of_ret (k := 14) hnull rfl rfl rfl
  have htrace : EndsAt nrSyscalls kernelDs o N (.path .tracesys) := by
    refine ends_through (k := 12) [.path .tracesysExit] rfl rfl rfl ?_ hexit
    simpa using hexit
  cases l with
  | systemCall =>
      refine ends_through (k := 3) [.path .badsys, .path .tracesys, .path .auditsys] rfl rfl rfl
        ?_ hret
      simpa using ⟨hbad, htrace, haudit⟩
  | retFromSysCall => exact hret
  | auditsys => exact haudit
  | tracesys => exact htrace
  | tracesysExit => exact hexit
  | badsys => exact hbad

theorem ends_errorCode (hnull : o.loads 0 = true) :
    EndsAt nrSyscalls kernelDs o N .errorCode := by
  refine ends_closed (k := 19) [.retFromException] rfl rfl rfl ?_
  simpa using ends_retFromException hnull

theorem ends_trap (hnull : o.loads 0 = true) (e : Exception) :
    EndsAt nrSyscalls kernelDs o N (.trap e) := by
  have herror : EndsAt nrSyscalls kernelDs o N .errorCode := ends_errorCode hnull
  have hjmp : ∀ l ∈ [Label.errorCode], EndsAt nrSyscalls kernelDs o N l := by simpa using herror
  cases e with
  | divideError => exact ends_through (k := 18) [] rfl rfl rfl nofun herror
  | coprocessorError => exact ends_closed (k := 20) _ rfl rfl rfl hjmp
  | simdCoprocessorError => exact ends_closed (k := 21) _ rfl rfl rfl hjmp
  | debug => exact ends_closed (k := 24) _ rfl rfl rfl hjmp
  | int3 => exact ends_closed (k := 29) _ rfl rfl rfl hjmp
  | overflow => exact ends_closed (k := 30) _ rfl rfl rfl hjmp
  | bounds => exact ends_closed (k := 31) _ rfl rfl rfl hjmp
  | invalidOp => exact ends_closed (k := 32) _ rfl rfl rfl hjmp
  | coprocessorSegmentOverrun => exact ends_closed (k := 33) _ rfl rfl rfl hjmp
  | doubleFault => exact ends_closed (k := 34) _ rfl rfl rfl hjmp
  | invalidTSS => exact ends_closed (k := 35) _ rfl rfl rfl hjmp
  | segmentNotPresent => exact ends_closed (k := 36) _ rfl rfl rfl hjmp
  | stackSegment => exact ends_closed (k := 37) _ rfl rfl rfl hjmp
  | generalProtection => exact ends_closed (k := 38) _ rfl rfl rfl hjmp
  | alignmentCheck => exact ends_closed (k := 39) _ rfl rfl rfl hjmp
  | pageFault => exact ends_closed (k := 40) _ rfl rfl rfl hjmp
  | machineCheck => exact ends_closed (k := 41) _ rfl rfl rfl hjmp
  | spuriousInterruptBug => exact ends_closed (k := 42) _ rfl rfl rfl hjmp

theorem ends_deviceNotAvailable (hnull : o.loads 0 = true) :
    EndsAt nrSyscalls kernelDs o N .deviceNotAvailable ∧
      EndsAt nrSyscalls kernelDs o N .deviceNotAvailableEmulate := by
  have hret : EndsAt nrSyscalls kernelDs o N .retFromException := ends_retFromException hnull
  have hemulate : EndsAt nrSyscalls kernelDs o N .deviceNotAvailableEmulate := by
    refine ends_closed (k := 23) [.retFromException] rfl rfl rfl ?_
    simpa using hret
  refine ⟨ends_closed (k := 22) [.deviceNotAvailableEmulate, .retFromException] rfl rfl rfl ?_,
    hemulate⟩
  simpa using ⟨hemulate, hret⟩

/-- Every label of the listing. -/
theorem ends_label (hnull : o.loads 0 = true) (l : Label) : EndsAt nrSyscalls kernelDs o N l := by
  have hret : EndsAt nrSyscalls kernelDs o N (.path .retFromSysCall) := ends_retFromSysCall hnull
  cases l with
  | path l => exact ends_path hnull l
  | lcall7 => exact ends_of_ret (k := 0) hnull rfl rfl rfl
  | lcall27 => exact ends_of_ret (k := 1) hnull rfl rfl rfl
  | retFromFork =>
      refine ends_closed (k := 2) [.path .tracesysExit, .path .retFromSysCall] rfl rfl rfl ?_
      simpa using ⟨ends_path hnull .tracesysExit, hret⟩
  | restoreAll => exact ends_restoreAll hnull
  | signalReturn => exact ends_signalReturn hnull
  | v86SignalReturn => exact ends_v86SignalReturn hnull
  | retFromIntr =>
      exact ends_through (k := 15) [] rfl rfl rfl nofun (ends_retFromException hnull)
  | retFromException => exact ends_retFromException hnull
  | reschedule => exact ends_of_ret (k := 17) hnull rfl rfl rfl
  | errorCode => exact ends_errorCode hnull
  | trap e => exact ends_trap hnull e
  | deviceNotAvailable => exact (ends_deviceNotAvailable hnull).1
  | deviceNotAvailableEmulate => exact (ends_deviceNotAvailable hnull).2
  | nmi => exact ends_through (k := 25) [] rfl rfl rfl nofun (ends_one hnull .nmi).1
  | one p => exact (ends_one hnull p).1
  | two p => exact (ends_two hnull p).1
  | three p => exact ends_three p
  | four p => exact (ends_one hnull p).2
  | five p => exact (ends_two hnull p).2
  | six p => exact ends_six p

end Labels

/-- From any label and any state, a run without interrupts leaves the listing, unless it calls
the scheduler as often as one likes. -/
theorem listing_left (nrSyscalls kernelDs : UInt32) (o : Outside Symbol) (hnull : o.loads 0 = true)
    (l : Label) (s : TrapState Symbol) (N : ℕ) :
    ∃ k : ℕ, (∃ i, (machine nrSyscalls kernelDs o).Leaves ((machine nrSyscalls kernelDs o).run
        ⟨goto l (listing nrSyscalls kernelDs o.address), s⟩ (List.replicate k none)) i) ∨
      N ≤ schedules ((machine nrSyscalls kernelDs o).run
        ⟨goto l (listing nrSyscalls kernelDs o.address), s⟩ (List.replicate k none)).state.calls :=
  ends_label hnull l s trivial

theorem listing_left_getpid : ∃ k : ℕ,
    (∃ i, (machine 270 0x18 idleOutside).Leaves ((machine 270 0x18 idleOutside).run
        ⟨goto (.path .systemCall) (listing 270 0x18 idleOutside.address),
          ⟨getpidFrame.enter [], []⟩⟩ (List.replicate k none)) i) ∨
      1 ≤ schedules ((machine 270 0x18 idleOutside).run
        ⟨goto (.path .systemCall) (listing 270 0x18 idleOutside.address),
          ⟨getpidFrame.enter [], []⟩⟩ (List.replicate k none)).state.calls :=
  listing_left 270 0x18 idleOutside rfl (.path .systemCall) ⟨getpidFrame.enter [], []⟩ 1

end Entry
