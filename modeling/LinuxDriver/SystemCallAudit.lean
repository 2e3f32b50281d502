import LinuxDriver.SystemCall

/-!
# Which system calls the inserted audit sees

On the plain path the chain compares the saved number with each listed one; `auditsys` pushes
the return value and then reads the number at `0x28(%esp)`, one word further up than
`ORIG_EAX`. On the traced path there is no chain. The two paths are executed symbolically and
compared.
-/

open I386

namespace SystemCall

/-- `current`, as `GET_CURRENT` finds it below the frame. -/
def current (s : State) : UInt32 :=
  -8192 &&& (s.top - 4 * UInt32.ofNat (s.stack.length + 10))

/-- The `PT_TRACESYS` flag of the running task. -/
def traced (s : State) : Bool := !decide (s.mem (current s + tskPtrace) &&& PT_TRACESYS = 0)

def framed (kernelDs : UInt32) (s : State) : State where
  reg
    | .ebx => current s
    | .edx | .ds | .es => kernelDs
    | r => s.reg r
  stack := s.reg .ebx :: s.reg .ecx :: s.reg .edx :: s.reg .esi :: s.reg .edi :: s.reg .ebp ::
    s.reg .eax :: s.reg .ds :: s.reg .es :: s.reg .eax :: s.stack
  top := s.top
  mem := s.mem
  flags := ⟨current s = 0, false⟩

section Paths

variable {nrSyscalls kernelDs : UInt32} {env : Callee Symbol → State → State}
  {prog rest : Code} {s : State} {calls : List (Call Symbol)} {out : Machine}

theorem foldl_prologue : (prologue kernelDs).foldl State.step s = framed kernelDs s := by
  refine State.ext (funext fun r => ?_) rfl rfl rfl rfl
  cases r <;> rfl

theorem reaches_prologue : Reaches prog env .retFromSysCall
      ⟨instrs (prologue kernelDs) ++ rest, s, calls⟩ out ↔
    Reaches prog env .retFromSysCall ⟨rest, framed kernelDs s, calls⟩ out := by
  rw [instrs, reaches_straight rfl, foldl_prologue]

theorem notMem_instrs (l : Label) (is : List (Instr Label Symbol)) :
    Line.label l ∉ instrs is := by
  simp [instrs]

theorem notMem_compareChain (l : Label) (ks : List UInt32) :
    Line.label l ∉ compareChain ks := by
  simp [compareChain, instrs]

theorem goto_listing {l : Label} (hl : l ≠ .systemCall) :
    goto l (listing nrSyscalls kernelDs) = goto l (rejoin nrSyscalls) := by
  rw [listing, goto, if_neg hl.symm, goto_append_of_notMem (notMem_instrs l _), systemCall,
    goto_append_of_notMem (notMem_instrs l _), goto_append_of_notMem (notMem_compareChain l _)]

theorem reaches_compare (k : UInt32) : Reaches prog env .retFromSysCall
      ⟨.instr (.cmpl (.imm k) (.frame ORIG_EAX)) :: .instr (.je .auditsys) :: rest, s, calls⟩
      out ↔
    Reaches prog env .retFromSysCall
      ⟨if s.frame ORIG_EAX = k then goto .auditsys prog else rest,
        { s with flags := ⟨s.frame ORIG_EAX = k, s.frame ORIG_EAX < k⟩ }, calls⟩ out := by
  rw [reaches_step rfl, reaches_je]
  by_cases h : s.frame ORIG_EAX = k
  · have hzf : (s.step (.cmpl (.imm k) (.frame ORIG_EAX) : Instr Label Symbol)).flags.zf = true :=
      decide_eq_true h
    rw [if_pos hzf, if_pos h]
    rfl
  · have hzf : (s.step (.cmpl (.imm k) (.frame ORIG_EAX) : Instr Label Symbol)).flags.zf = false :=
      decide_eq_false h
    rw [if_neg (by rw [hzf]; exact Bool.false_ne_true), if_neg h]
    rfl

/-- A number in the list leaves the chain for the audit. -/
theorem reaches_compareChain (prog : Code) (env : Callee Symbol → State → State) (rest : Code)
    (calls : List (Call Symbol)) (ks : List UInt32) (s : State) :
    ∃ flags, ∀ out, Reaches prog env .retFromSysCall ⟨compareChain ks ++ rest, s, calls⟩ out ↔
      Reaches prog env .retFromSysCall
        ⟨if s.frame ORIG_EAX ∈ ks then goto .auditsys prog else rest,
          { s with flags := flags }, calls⟩ out := by
  induction ks generalizing s with
  | nil => exact ⟨s.flags, fun _ => Iff.rfl⟩
  | cons k ks ih =>
      have hline : compareChain (k :: ks) ++ rest = .instr (.cmpl (.imm k) (.frame ORIG_EAX)) ::
          .instr (.je .auditsys) :: (compareChain ks ++ rest) := rfl
      rw [hline]
      by_cases h : s.frame ORIG_EAX = k
      · refine ⟨⟨s.frame ORIG_EAX = k, s.frame ORIG_EAX < k⟩, fun out => ?_⟩
        rw [reaches_compare, if_pos h, if_pos (h ▸ List.mem_cons_self)]
      · obtain ⟨flags, hks⟩ :=
          ih { s with flags := ⟨s.frame ORIG_EAX = k, s.frame ORIG_EAX < k⟩ }
        refine ⟨flags, fun out => ?_⟩
        rw [reaches_compare, if_neg h, hks]
        simp only [List.mem_cons, h, false_or]
        rfl

/-- The machine when `auditsys` calls the audit, with its two arguments on the stack. -/
def audited (s : State) : State := (s.push (s.reg .eax)).push (s.frame ORIG_EAX)

theorem reaches_auditsys : Reaches prog env .retFromSysCall ⟨auditsys ++ rest, s, calls⟩ out ↔
    Reaches prog env .retFromSysCall ⟨goto .retFromSysCall prog,
      ((env (.named .syscallAudit) (audited s)).pop .eax).pop .eax,
      calls ++ [⟨.named .syscallAudit, audited s, env (.named .syscallAudit) (audited s)⟩]⟩
      out := by
  rw [auditsys, List.cons_append, reaches_label (by decide)]
  simp only [instrs, List.map_cons, List.map_nil, List.cons_append, List.nil_append]
  rw [reaches_step rfl, reaches_step rfl, reaches_call, reaches_step rfl, reaches_step rfl,
    reaches_jmp]
  rfl

/-- The machine when the system call is entered through `call *sys_call_table`. -/
def entered (kernelDs : UInt32) (s : State) : State :=
  { framed kernelDs s with flags := ⟨!traced s, false⟩ }

def served (env : Callee Symbol → State → State) (n : UInt32) (before : State) : State :=
  let after := env (.slot .sysCallTable n) before
  after.set (after.reg .eax) (.frame EAX)

def tableCall (env : Callee Symbol → State → State) (n : UInt32) (before : State) :
    Call Symbol :=
  ⟨.slot .sysCallTable n, before, env (.slot .sysCallTable n) before⟩

theorem reaches_systemCall (hn : s.reg .eax < nrSyscalls) : Reaches prog env .retFromSysCall
      ⟨systemCall nrSyscalls ++ rest, framed kernelDs s, calls⟩ out ↔
    Reaches prog env .retFromSysCall
      ⟨if traced s then goto .tracesys prog
        else .instr (.callTable .sysCallTable .eax) :: .instr (.movl eax (.frame EAX)) :: rest,
        entered kernelDs s, calls⟩ out := by
  have hcf : decide (s.reg .eax < nrSyscalls) = true := decide_eq_true hn
  have hstep : ∀ flags : Flags, ({ framed kernelDs s with flags := flags } : State).step
      (.testb PT_TRACESYS tskPtrace .ebx : Instr Label Symbol) = entered kernelDs s := by
    intro flags
    exact State.ext rfl rfl rfl rfl (congrArg (Flags.mk · false) (Bool.not_not _).symm)
  simp only [systemCall, instrs, List.map_cons, List.map_nil, List.cons_append, List.nil_append]
  rw [reaches_step rfl, reaches_jae]
  change Reaches prog env _ ⟨if (!decide (s.reg .eax < nrSyscalls)) = true then _ else _,
    { framed kernelDs s with flags := _ }, _⟩ _ ↔ _
  rw [hcf, if_neg (by decide), reaches_step rfl, hstep, reaches_jne]
  simp only [entered, Bool.not_not]

/-- What the code outside the listing keeps of the frame: a call returns with the stack
pointer it was made with, a system call does not rewrite the saved call number, tracing
rewrites no saved register, and the audit owns no more than its two arguments. -/
structure KeepsFrame (env : Callee Symbol → State → State) (n : UInt32) : Prop where
  returns : ∀ f s, (env f s).top = s.top ∧ (env f s).stack.length = s.stack.length
  sysCall : ∀ s, (env (.slot .sysCallTable n) s).frame ORIG_EAX = s.frame ORIG_EAX
  trace : ∀ s, (env (.named .syscallTrace) s).frame ORIG_EAX = s.frame ORIG_EAX ∧
    (env (.named .syscallTrace) s).frame EAX = s.frame EAX
  audit : ∀ s, (env (.named .syscallAudit) s).stack.drop 2 = s.stack.drop 2

theorem reaches_plain (hn : s.reg .eax < nrSyscalls) (ht : traced s = false) :
    Reaches prog env .retFromSysCall
      ⟨systemCall nrSyscalls ++ rest, framed kernelDs s, calls⟩ out ↔
    Reaches prog env .retFromSysCall
      ⟨rest, served env (s.reg .eax) (entered kernelDs s),
        calls ++ [tableCall env (s.reg .eax) (entered kernelDs s)]⟩ out := by
  rw [reaches_systemCall hn, ht, if_neg Bool.false_ne_true, reaches_callTable rfl,
    reaches_step rfl]
  rfl

def tracedEntry (env : Callee Symbol → State → State) (nrSyscalls : UInt32) (s : State) :
    State :=
  let told := env (.named .syscallTrace) (s.set (-enosys) (.frame EAX))
  let n := told.frame ORIG_EAX
  { told.set n (.reg .eax) with flags := ⟨n = nrSyscalls, n < nrSyscalls⟩ }

def traceCall (env : Callee Symbol → State → State) (before : State) : Call Symbol :=
  ⟨.named .syscallTrace, before, env (.named .syscallTrace) before⟩

/-- The traced path tells the tracer, makes the system call, tells the tracer again and
rejoins; it never comes to the chain. -/
theorem reaches_tracesys {n : UInt32} (henv : KeepsFrame env n) (hframe : s.frame ORIG_EAX = n)
    (hn : n < nrSyscalls) : Reaches prog env .retFromSysCall
      ⟨tracesys nrSyscalls ++ (tracesysExit ++ rest), s, calls⟩ out ↔
    Reaches prog env .retFromSysCall
      ⟨goto .retFromSysCall prog,
        env (.named .syscallTrace) (served env n (tracedEntry env nrSyscalls s)),
        calls ++ [traceCall env (s.set (-enosys) (.frame EAX))] ++
          [tableCall env n (tracedEntry env nrSyscalls s)] ++
          [traceCall env (served env n (tracedEntry env nrSyscalls s))]⟩ out := by
  have hnum : (env (.named .syscallTrace) (s.set (-enosys) (.frame EAX))).frame ORIG_EAX = n := by
    rw [(henv.trace _).1, State.frame_set_of_ne _ (by decide), hframe]
  have hcf : (tracedEntry env nrSyscalls s).flags.cf = true := by
    simp only [tracedEntry, hnum]
    exact decide_eq_true hn
  have heax : (tracedEntry env nrSyscalls s).reg .eax = n := hnum
  rw [tracesys, tracesysExit, List.cons_append, reaches_label (by decide)]
  simp only [instrs, List.map_cons, List.map_nil, List.cons_append, List.nil_append]
  rw [reaches_step rfl, reaches_call, reaches_step rfl, reaches_step rfl, reaches_jae]
  change Reaches prog env _ ⟨if (!(tracedEntry env nrSyscalls s).flags.cf) = true then _ else _,
    tracedEntry env nrSyscalls s, _⟩ _ ↔ _
  rw [hcf, if_neg (by decide), reaches_callTable heax, reaches_step rfl,
    reaches_label (by decide), reaches_call, reaches_jmp]
  rfl

end Paths

/-- The system calls made, and the arguments of the calls of `syscall_audit`. -/
def tableCalls (calls : List (Call Symbol)) : List (Call Symbol) :=
  calls.filter fun c => match c.callee with
    | .slot _ _ => true
    | .named _ => false

def auditArgs (calls : List (Call Symbol)) : List (UInt32 × UInt32) :=
  calls.filterMap fun c =>
    if c.callee = .named .syscallAudit then some (c.before.frame 0, c.before.frame 4) else none

/-- The system call is audited as its number asks: the path from `system_call` makes it once
and comes to `ret_from_sys_call` with the stack pointer and the saved return value as the
call left them, and `syscall_audit` has been called once with the number and the return
value if the number is in the compare list, and not at all otherwise. -/
def AuditedAsListed (nrSyscalls kernelDs : UInt32) (env : Callee Symbol → State → State)
    (s : State) : Prop :=
  ∃ (out : Machine) (call : Call Symbol),
    Reaches (listing nrSyscalls kernelDs) env .retFromSysCall
      ⟨listing nrSyscalls kernelDs, s, []⟩ out ∧
    tableCalls out.calls = [call] ∧ call.callee = .slot .sysCallTable (s.reg .eax) ∧
    auditArgs out.calls =
      (if s.reg .eax ∈ compareList then [(s.reg .eax, call.after.reg .eax)] else []) ∧
    out.state.esp = call.after.esp ∧ out.state.frame EAX = call.after.reg .eax

section Audit

variable {nrSyscalls kernelDs n : UInt32} {env : Callee Symbol → State → State}
  {s before : State} {out : Machine}

theorem served_origEax (henv : KeepsFrame env n) :
    (served env n before).frame ORIG_EAX = before.frame ORIG_EAX := by
  rw [served, State.frame_set_of_ne _ (by decide), henv.sysCall]

theorem served_eax (henv : KeepsFrame env n) (hlen : 10 ≤ before.stack.length) :
    (served env n before).frame EAX = (tableCall env n before).after.reg .eax := by
  have hkeep := (henv.returns (.slot .sysCallTable n) before).2
  exact State.frame_set _ (by rw [hkeep, EAX]; omega)

theorem served_esp : (served env n before).esp = (tableCall env n before).after.esp :=
  State.esp_eq rfl (List.length_set ..)

theorem stack_after_audit (henv : KeepsFrame env n) (s : State) :
    (((env (.named .syscallAudit) (audited s)).pop .eax).pop .eax).stack = s.stack := by
  have hdrop := henv.audit (audited s)
  change (env (.named .syscallAudit) (audited s)).stack.tail.tail = s.stack
  rw [← List.drop_one, ← List.drop_one, List.drop_drop, hdrop]
  rfl

theorem esp_after_audit (henv : KeepsFrame env n) (s : State) :
    (((env (.named .syscallAudit) (audited s)).pop .eax).pop .eax).esp = s.esp := by
  refine State.esp_eq ?_ (congrArg List.length (stack_after_audit henv s))
  exact (henv.returns (.named .syscallAudit) (audited s)).1

theorem reaches_listing : Reaches (listing nrSyscalls kernelDs) env .retFromSysCall
      ⟨listing nrSyscalls kernelDs, s, []⟩ out ↔
    Reaches (listing nrSyscalls kernelDs) env .retFromSysCall
      ⟨systemCall nrSyscalls ++ (compareChain compareList ++ rejoin nrSyscalls),
        framed kernelDs s, []⟩ out := by
  conv_lhs => rw [listing]
  rw [reaches_label (by decide), reaches_prologue]
  rfl

theorem goto_auditsys : goto .auditsys (listing nrSyscalls kernelDs) =
    auditsys ++ (tracesys nrSyscalls ++ (tracesysExit ++ badsys)) := goto_listing (by decide)

theorem goto_tracesys : goto .tracesys (listing nrSyscalls kernelDs) =
    tracesys nrSyscalls ++ (tracesysExit ++ badsys) := goto_listing (by decide)

theorem goto_retFromSysCall : goto .retFromSysCall (listing nrSyscalls kernelDs) =
    rejoin nrSyscalls := goto_listing (by decide)

/-- From the chain on, a listed number is audited and any other is not; either way the frame
comes to `ret_from_sys_call` unchanged. -/
theorem reaches_ret_of_chain (nrSyscalls kernelDs : UInt32) {t : State} {call : Call Symbol}
    (henv : KeepsFrame env n) (horig : t.frame ORIG_EAX = n)
    (hcallee : call.callee = .slot .sysCallTable n) :
    ∃ out : Machine, Reaches (listing nrSyscalls kernelDs) env .retFromSysCall
        ⟨compareChain compareList ++ rejoin nrSyscalls, t, [call]⟩ out ∧
      tableCalls out.calls = [call] ∧
      auditArgs out.calls = (if n ∈ compareList then [(n, t.reg .eax)] else []) ∧
      out.state.esp = t.esp ∧ out.state.frame EAX = t.frame EAX := by
  obtain ⟨flags, hchain⟩ := reaches_compareChain (listing nrSyscalls kernelDs) env
    (rejoin nrSyscalls) [call] compareList t
  by_cases hmem : n ∈ compareList
  · let left : State := { t with flags := flags }
    let audit : Call Symbol :=
      ⟨.named .syscallAudit, audited left, env (.named .syscallAudit) (audited left)⟩
    have hargs : auditArgs [call, audit] = [(n, t.reg .eax)] := by
      rw [← horig]
      simp only [auditArgs, List.filterMap_cons, hcallee, reduceCtorEq, if_false]
      rfl
    refine ⟨⟨rejoin nrSyscalls, (audit.after.pop .eax).pop .eax, [call, audit]⟩,
      (hchain _).2 ?_, ?_, ?_, esp_after_audit henv left, ?_⟩
    · rw [horig, if_pos hmem, goto_auditsys, reaches_auditsys, goto_retFromSysCall, rejoin,
        reaches_exit]
      rfl
    · simp [tableCalls, hcallee, audit]
    · rw [if_pos hmem]
      exact hargs
    · exact congrArg (fun stack => stack.getD (EAX / 4) 0) (stack_after_audit henv left)
  · refine ⟨⟨rejoin nrSyscalls, { t with flags := flags }, [call]⟩, (hchain _).2 ?_, ?_, ?_,
      rfl, rfl⟩
    · rw [horig, if_neg hmem, rejoin, reaches_exit]
    · simp [tableCalls, hcallee]
    · simp [auditArgs, hcallee, hmem]

theorem auditedAsListed_of_plain (henv : KeepsFrame env (s.reg .eax))
    (hn : s.reg .eax < nrSyscalls) (ht : traced s = false) :
    AuditedAsListed nrSyscalls kernelDs env s := by
  have hlen : 10 ≤ (entered kernelDs s).stack.length := by
    simp [entered, framed]
  have hcallee : (tableCall env (s.reg .eax) (entered kernelDs s)).callee =
      .slot .sysCallTable (s.reg .eax) := rfl
  obtain ⟨out, hout, htable, hargs, hesp, heax⟩ :=
    reaches_ret_of_chain nrSyscalls kernelDs henv
      (served_origEax henv : (served env (s.reg .eax) (entered kernelDs s)).frame ORIG_EAX = _)
      hcallee
  refine ⟨out, tableCall env (s.reg .eax) (entered kernelDs s), ?_, htable, rfl, hargs,
    hesp.trans served_esp, heax.trans (served_eax henv hlen)⟩
  rw [reaches_listing, reaches_plain hn ht]
  exact hout

/-- A traced task makes its system call and is never audited. -/
theorem reaches_traced (kernelDs : UInt32) (henv : KeepsFrame env (s.reg .eax))
    (hn : s.reg .eax < nrSyscalls) (ht : traced s = true) :
    ∃ before : State, 10 ≤ before.stack.length ∧
      ∀ out, Reaches (listing nrSyscalls kernelDs) env .retFromSysCall
          ⟨listing nrSyscalls kernelDs, s, []⟩ out ↔
        out = ⟨rejoin nrSyscalls,
          env (.named .syscallTrace) (served env (s.reg .eax) before),
          [traceCall env ((entered kernelDs s).set (-enosys) (.frame EAX)),
            tableCall env (s.reg .eax) before,
            traceCall env (served env (s.reg .eax) before)]⟩ := by
  refine ⟨tracedEntry env nrSyscalls (entered kernelDs s), ?_, fun out => ?_⟩
  · have hlen := (henv.returns (.named .syscallTrace)
      ((entered kernelDs s).set (-enosys) (.frame EAX))).2
    change 10 ≤ (env (.named .syscallTrace) _).stack.length
    rw [hlen]
    simp [State.set, entered, framed]
  · rw [reaches_listing, reaches_systemCall hn, ht, if_pos rfl, goto_tracesys,
      reaches_tracesys henv rfl hn, goto_retFromSysCall, rejoin, reaches_exit]
    rfl

theorem auditedAsListed_of_traced (kernelDs : UInt32) (henv : KeepsFrame env (s.reg .eax))
    (hn : s.reg .eax < nrSyscalls) (ht : traced s = true) :
    AuditedAsListed nrSyscalls kernelDs env s ↔ s.reg .eax ∉ compareList := by
  obtain ⟨before, hlen, hreach⟩ := reaches_traced kernelDs henv hn ht
  constructor
  · rintro ⟨out, call, hout, -, -, hargs, -⟩ hmem
    rw [(hreach out).1 hout, if_pos hmem] at hargs
    exact absurd hargs.symm (List.cons_ne_nil _ _)
  · intro hmem
    refine ⟨_, tableCall env (s.reg .eax) before, (hreach _).2 rfl, rfl, rfl, ?_, ?_, ?_⟩
    · rw [if_neg hmem]
      rfl
    · have hback := henv.returns (.named .syscallTrace) (served env (s.reg .eax) before)
      exact (State.esp_eq hback.1 hback.2).trans served_esp
    · exact (henv.trace _).2.trans (served_eax henv hlen)

end Audit

/-- A system call is audited as listed exactly when the task is not traced or the number is
not in the list. -/
theorem system_call_audited_iff (nrSyscalls kernelDs : UInt32)
    (env : Callee Symbol → State → State) (s : State) (henv : KeepsFrame env (s.reg .eax))
    (hn : s.reg .eax < nrSyscalls) :
    AuditedAsListed nrSyscalls kernelDs env s ↔
      traced s = false ∨ s.reg .eax ∉ compareList := by
  cases ht : traced s with
  | false => exact iff_of_true (auditedAsListed_of_plain henv hn ht) (Or.inl rfl)
  | true =>
      rw [auditedAsListed_of_traced kernelDs henv hn ht]
      simp

/-- Code outside the listing that returns `ret` from every system call and does nothing else. -/
def returning (ret : UInt32) : Callee Symbol → State → State
  | .slot _ _, s => s.set ret (.reg .eax)
  | .named _, s => s

theorem keepsFrame_returning (ret n : UInt32) : KeepsFrame (returning ret) n where
  returns f s := by cases f <;> exact ⟨rfl, rfl⟩
  sysCall _ := rfl
  trace _ := ⟨rfl, rfl⟩
  audit _ := rfl

/-- A task at `0xc0000000` entering the kernel with number `n` and the given `ptrace` flags. -/
def userEntry (n : UInt32) (ptrace : UInt8) : State where
  reg r := if r = .eax then n else 0
  stack := [0x08048000, 0x23, 0x202, 0xbffff000, 0x2b]
  top := 0xc0002000
  mem a := if a = 0xc0000018 then ptrace else 0
  flags := ⟨false, false⟩

theorem system_call_audited_open :
    AuditedAsListed 256 0x18 (returning 3) (userEntry 5 0) :=
  (system_call_audited_iff 256 0x18 (returning 3) (userEntry 5 0) (keepsFrame_returning 3 _)
    (by decide)).2 (Or.inl (by decide))

/-- The `open` of a traced task returns without an audit. -/
theorem system_call_traced_open_unaudited :
    KeepsFrame (returning 3) 5 ∧ (userEntry 5 PT_TRACESYS).reg .eax < 256 ∧
      (userEntry 5 PT_TRACESYS).reg .eax ∈ compareList ∧
      traced (userEntry 5 PT_TRACESYS) = true ∧
      ¬ AuditedAsListed 256 0x18 (returning 3) (userEntry 5 PT_TRACESYS) := by
  have hn : (userEntry 5 PT_TRACESYS).reg .eax < 256 := by decide
  have hmem : (userEntry 5 PT_TRACESYS).reg .eax ∈ compareList := by decide
  have ht : traced (userEntry 5 PT_TRACESYS) = true := by decide
  have hiff := auditedAsListed_of_traced 0x18 (keepsFrame_returning 3 _) hn ht
  exact ⟨keepsFrame_returning 3 5, hn, hmem, ht, fun h => hiff.1 h hmem⟩

end SystemCall
