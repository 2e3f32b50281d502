import LinuxDriver.SystemCall
import LinuxDriver.TrapMachine

/-!
# The trap code of the audited kernel

The listing of `entry.s` in its order, with the system call path of the previous modules at its
place. `RESTORE_ALL` stands at two places; each has its own local labels and its own part of
the fixup section. What only a kernel with `CONFIG_KDB` has is left out.
-/

open I386 Assembly

namespace Entry

/-- The traps that go through `error_code`. -/
inductive Exception where
  | divideError
  | coprocessorError
  | simdCoprocessorError
  | debug
  | int3
  | overflow
  | bounds
  | invalidOp
  | coprocessorSegmentOverrun
  | doubleFault
  | invalidTSS
  | segmentNotPresent
  | stackSegment
  | generalProtection
  | alignmentCheck
  | pageFault
  | machineCheck
  | spuriousInterruptBug
  deriving DecidableEq, Repr

/-- Where `RESTORE_ALL` stands. -/
inductive Site where
  | restoreAll
  | nmi
  deriving DecidableEq, Repr

inductive Label where
  | path (l : SystemCall.Label)
  | lcall7
  | lcall27
  | retFromFork
  | restoreAll
  | signalReturn
  | v86SignalReturn
  | retFromIntr
  | retFromException
  | reschedule
  | errorCode
  | trap (e : Exception)
  | deviceNotAvailable
  | deviceNotAvailableEmulate
  | nmi
  | one (p : Site)
  | two (p : Site)
  | three (p : Site)
  | four (p : Site)
  | five (p : Site)
  | six (p : Site)
  deriving DecidableEq, Repr

/-- The functions called; `handler e` is the `do_…` of the trap `e`. -/
inductive Symbol where
  | path (f : SystemCall.Symbol)
  | scheduleTail
  | schedule
  | doSignal
  | saveV86State
  | handler (e : Exception)
  | mathStateRestore
  | mathEmulate
  | doNmi
  | doExit
  deriving DecidableEq, Repr

abbrev Instr := TrapInstr Label Symbol

abbrev Blocks := List (Label × List Instr)

def ES : ℕ := 0x20
def EIP : ℕ := 0x28
def CS : ℕ := 0x2C
def EFLAGS : ℕ := 0x30

def VM_MASK : UInt32 := 0x00020000

def sigpending : UInt32 := 8
def execDomain : UInt32 := 16
def needResched : UInt32 := 20

/-- An instruction of the system call path. -/
def path (i : I386.Instr SystemCall.Label SystemCall.Symbol) : Instr :=
  .core (i.map .path .path)

/-- The instructions of a piece of the system call path. -/
def body (code : SystemCall.Code) : List Instr :=
  code.filterMap fun
    | .label _ => none
    | .instr i => some (path i)

def reg (r : Reg) : Operand := .val (.reg r)

def saved (disp : ℕ) : Operand := .val (.frame disp)

def saveAll (kernelDs : UInt32) : List Instr := (SystemCall.saveAll kernelDs).map path

def getCurrent (r : Reg) : List Instr := (SystemCall.getCurrent r).map path

/-- `RESTORE_ALL` up to the first instruction that may fault. -/
def restoreRegs : List Instr :=
  [.core (.popl .ebx),
   .core (.popl .ecx),
   .core (.popl .edx),
   .core (.popl .esi),
   .core (.popl .edi),
   .core (.popl .ebp),
   .core (.popl .eax)]

/-- `RESTORE_ALL` from there. -/
def restoreSegments (p : Site) : Blocks :=
  [(.one p, [.poplSeg .ds (.four p)]),
   (.two p, [.poplSeg .es (.five p), .addlEsp 4]),
   (.three p, [.iret (.six p)])]

/-- The part of the fixup section for one `RESTORE_ALL`. -/
def fixup (p : Site) : Blocks :=
  [(.four p, [.core (.movl (.imm 0) (.frame 0)), .core (.jmp (.one p))]),
   (.five p, [.core (.movl (.imm 0) (.frame 0)), .core (.jmp (.two p))]),
   (.six p,
    [.pushlSs,
     .core (.popl .ds),
     .pushlSs,
     .core (.popl .es),
     .core (.pushl (.imm 11)),
     .callNoReturn .doExit])]

/-- `lcall7` and `lcall27` up to the push of their number: a call gate pushes no `EFLAGS`, and
the frame is put in order. -/
def lcallFrame (kernelDs : UInt32) : List Instr :=
  .pushfl :: .core (.pushl (reg .eax)) :: saveAll kernelDs ++
    [.core (.movl (saved EIP) (.reg .eax)),
     .core (.movl (saved CS) (.reg .edx)),
     .core (.movl (saved EFLAGS) (.reg .ecx)),
     .core (.movl (reg .eax) (.frame EFLAGS)),
     .core (.movl (reg .edx) (.frame EIP)),
     .core (.movl (reg .ecx) (.frame CS)),
     .core (.movl .esp (.reg .ebx)),
     .core (.pushl (reg .ebx)),
     .core (.andl (.imm (-8192)) (.reg .ebx))]

/-- The two call gates differ in the number they hand to the handler. -/
def lcall (kernelDs n : UInt32) : List Instr :=
  lcallFrame kernelDs ++
    [.movlMem execDomain .ebx .edx,
     .movlMem 4 .edx .edx,
     .core (.pushl (.imm n)),
     .callReg .edx,
     .addlEsp 4,
     .core (.popl .eax),
     .core (.jmp (.path .retFromSysCall))]

def lcall7 (kernelDs : UInt32) : Blocks := [(.lcall7, lcall kernelDs 0x7)]

def lcall27 (kernelDs : UInt32) : Blocks := [(.lcall27, lcall kernelDs 0x27)]

def retFromFork : Blocks :=
  [(.retFromFork,
    .core (.pushl (reg .ebx)) :: .core (.call .scheduleTail) :: .addlEsp 4 ::
      getCurrent .ebx ++
      [.core (.testb SystemCall.PT_TRACESYS SystemCall.tskPtrace .ebx),
       .core (.jne (.path .tracesysExit)),
       .core (.jmp (.path .retFromSysCall))])]

/-- `system_call`, up to the end of the compare chain. -/
def systemCall (nrSyscalls kernelDs : UInt32) : Blocks :=
  [(.path .systemCall,
    (SystemCall.prologue kernelDs).map path ++ body (SystemCall.systemCall nrSyscalls) ++
      body (SystemCall.compareChain SystemCall.compareList))]

def retFromSysCall : Blocks :=
  [(.path .retFromSysCall,
    [.cli,
     .cmplMem 0 needResched .ebx,
     .core (.jne .reschedule),
     .cmplMem 0 sigpending .ebx,
     .core (.jne .signalReturn)])]

def restoreAll : Blocks := (.restoreAll, restoreRegs) :: restoreSegments .restoreAll

def signalReturn : Blocks :=
  [(.signalReturn,
    [.sti,
     .testl VM_MASK (.frame EFLAGS),
     .core (.movl .esp (.reg .eax)),
     .core (.jne .v86SignalReturn),
     .xorl .edx,
     .core (.call .doSignal),
     .core (.jmp .restoreAll)])]

def v86SignalReturn : Blocks :=
  [(.v86SignalReturn,
    [.core (.call .saveV86State),
     .movlEsp .eax,
     .xorl .edx,
     .core (.call .doSignal),
     .core (.jmp .restoreAll)])]

/-- `auditsys`, `tracesys`, `tracesys_exit` and `badsys`. -/
def rejoin (nrSyscalls : UInt32) : Blocks :=
  [(.path .auditsys, body SystemCall.auditsys),
   (.path .tracesys, body (SystemCall.tracesys nrSyscalls)),
   (.path .tracesysExit, body SystemCall.tracesysExit),
   (.path .badsys, body SystemCall.badsys)]

def retFromIntr : Blocks := [(.retFromIntr, getCurrent .ebx)]

def retFromException : Blocks :=
  [(.retFromException,
    [.core (.movl (saved EFLAGS) (.reg .eax)),
     .movbAl CS,
     .testl (VM_MASK ||| 3) (.reg .eax),
     .core (.jne (.path .retFromSysCall)),
     .core (.jmp .restoreAll)])]

def reschedule : Blocks :=
  [(.reschedule, [.core (.call .schedule), .core (.jmp (.path .retFromSysCall))])]

/-- `error_code` up to the call of the handler. -/
def errorFrame (kernelDs : UInt32) : List Instr :=
  [.core (.pushl (reg .ds)),
   .core (.pushl (reg .eax)),
   .xorl .eax,
   .core (.pushl (reg .ebp)),
   .core (.pushl (reg .edi)),
   .core (.pushl (reg .esi)),
   .core (.pushl (reg .edx)),
   .decl .eax,
   .core (.pushl (reg .ecx)),
   .core (.pushl (reg .ebx)),
   .core .cld,
   .core (.movl (reg .es) (.reg .ecx)),
   .core (.movl (saved SystemCall.ORIG_EAX) (.reg .esi)),
   .core (.movl (saved ES) (.reg .edi)),
   .core (.movl (reg .eax) (.frame SystemCall.ORIG_EAX)),
   .core (.movl (reg .ecx) (.frame ES)),
   .core (.movl .esp (.reg .edx)),
   .core (.pushl (reg .esi)),
   .core (.pushl (reg .edx)),
   .core (.movl (.imm kernelDs) (.reg .edx)),
   .core (.movl (reg .edx) (.reg .ds)),
   .core (.movl (reg .edx) (.reg .es))] ++ getCurrent .ebx

def errorCode (kernelDs : UInt32) : Blocks :=
  [(.errorCode,
    errorFrame kernelDs ++ [.callReg .edi, .addlEsp 8, .core (.jmp .retFromException)])]

section Traps

variable (address : Symbol → UInt32)

/-- What an entry pushes before `error_code`: a word where the CPU pushes no error code, and
the handler. -/
def trapPushes (pushesCode : Bool) (e : Exception) : List Instr :=
  (if pushesCode then [] else [.core (.pushl (.imm 0))]) ++
    [.core (.pushl (.imm (address (.handler e))))]

def trap (pushesCode : Bool) (e : Exception) : Blocks :=
  [(.trap e, trapPushes address pushesCode e ++ [.core (.jmp .errorCode)])]

/-- `divide_error` stands in front of `error_code`. -/
def divideError : Blocks := [(.trap .divideError, trapPushes address false .divideError)]

def coprocessorError : Blocks := trap address false .coprocessorError
def simdCoprocessorError : Blocks := trap address false .simdCoprocessorError
def debug : Blocks := trap address false .debug
def int3 : Blocks := trap address false .int3
def overflow : Blocks := trap address false .overflow
def bounds : Blocks := trap address false .bounds
def invalidOp : Blocks := trap address false .invalidOp
def coprocessorSegmentOverrun : Blocks := trap address false .coprocessorSegmentOverrun
def doubleFault : Blocks := trap address true .doubleFault
def invalidTSS : Blocks := trap address true .invalidTSS
def segmentNotPresent : Blocks := trap address true .segmentNotPresent
def stackSegment : Blocks := trap address true .stackSegment
def generalProtection : Blocks := trap address true .generalProtection
def alignmentCheck : Blocks := trap address true .alignmentCheck
def pageFault : Blocks := trap address true .pageFault
def machineCheck : Blocks := trap address false .machineCheck
def spuriousInterruptBug : Blocks := trap address false .spuriousInterruptBug

end Traps

/-- `device_not_available` up to the branch on the EM bit. -/
def fpuFrame (kernelDs : UInt32) : List Instr :=
  .core (.pushl (.imm (-1))) :: saveAll kernelDs ++ getCurrent .ebx ++
    [.movlCr0 .eax, .testl 0x4 (.reg .eax)]

def deviceNotAvailable (kernelDs : UInt32) : Blocks :=
  [(.deviceNotAvailable,
    fpuFrame kernelDs ++
      [.core (.jne .deviceNotAvailableEmulate),
       .core (.call .mathStateRestore),
       .core (.jmp .retFromException)]),
   (.deviceNotAvailableEmulate,
    [.core (.pushl (.imm 0)),
     .core (.call .mathEmulate),
     .addlEsp 4,
     .core (.jmp .retFromException)])]

/-- `nmi` up to the call of `do_nmi`. -/
def nmiFrame (kernelDs : UInt32) : List Instr :=
  .core (.pushl (reg .eax)) :: saveAll kernelDs ++
    [.core (.movl .esp (.reg .edx)),
     .core (.pushl (.imm 0)),
     .core (.pushl (reg .edx))]

def nmi (kernelDs : UInt32) : Blocks :=
  (.nmi, nmiFrame kernelDs ++ [.core (.call .doNmi), .addlEsp 8] ++ restoreRegs) ::
    restoreSegments .nmi

def blocks (nrSyscalls kernelDs : UInt32) (address : Symbol → UInt32) : Blocks :=
  [lcall7 kernelDs, lcall27 kernelDs, retFromFork, systemCall nrSyscalls kernelDs,
    retFromSysCall, restoreAll, signalReturn, v86SignalReturn, rejoin nrSyscalls, retFromIntr,
    retFromException, reschedule, divideError address, errorCode kernelDs,
    coprocessorError address, simdCoprocessorError address, deviceNotAvailable kernelDs,
    debug address, nmi kernelDs, int3 address, overflow address, bounds address,
    invalidOp address, coprocessorSegmentOverrun address, doubleFault address,
    invalidTSS address, segmentNotPresent address, stackSegment address,
    generalProtection address, alignmentCheck address, pageFault address,
    machineCheck address, spuriousInterruptBug address, fixup .restoreAll, fixup .nmi].flatten

def listing (nrSyscalls kernelDs : UInt32) (address : Symbol → UInt32) :
    List (Assembly.Line Label Instr) :=
  lines (blocks nrSyscalls kernelDs address)

def machine (nrSyscalls kernelDs : UInt32) (o : Outside Symbol) :
    Machine Label Instr (TrapState Symbol) (UInt32 → UInt8) :=
  trapMachine o (listing nrSyscalls kernelDs o.address)

end Entry
