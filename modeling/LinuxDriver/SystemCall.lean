import LinuxDriver.I386

/-!
# The system call path of the audited kernel

The listing from `system_call` in `entry.s`, with the compare chain that the audit inserts, and
the audit, trace and error paths that rejoin at `ret_from_sys_call`. The chain stands on the
plain path alone: a traced task goes round it.
-/

open I386

namespace SystemCall

inductive Label where
  | systemCall
  | retFromSysCall
  | auditsys
  | tracesys
  | tracesysExit
  | badsys
  deriving DecidableEq, Repr

inductive Symbol where
  | sysCallTable
  | syscallTrace
  | syscallAudit
  deriving DecidableEq, Repr

abbrev Code := List (Line Label Symbol)

abbrev Machine := Config Label Symbol

/-- Offsets in the frame that `SAVE_ALL` builds, and in the task structure. -/
def EAX : ℕ := 0x18
def ORIG_EAX : ℕ := 0x24
def tskPtrace : UInt32 := 24
def PT_TRACESYS : UInt8 := 0x02

def enosys : UInt32 := 38

def instrs (is : List (Instr Label Symbol)) : Code := is.map .instr

def eax : Operand := .val (.reg .eax)

def saveAll (kernelDs : UInt32) : List (Instr Label Symbol) :=
  [.cld,
   .pushl (.val (.reg .es)),
   .pushl (.val (.reg .ds)),
   .pushl (.val (.reg .eax)),
   .pushl (.val (.reg .ebp)),
   .pushl (.val (.reg .edi)),
   .pushl (.val (.reg .esi)),
   .pushl (.val (.reg .edx)),
   .pushl (.val (.reg .ecx)),
   .pushl (.val (.reg .ebx)),
   .movl (.imm kernelDs) (.reg .edx),
   .movl (.val (.reg .edx)) (.reg .ds),
   .movl (.val (.reg .edx)) (.reg .es)]

/-- `GET_CURRENT(reg)`: the task structure lies at the bottom of the 8K stack. -/
def getCurrent (r : Reg) : List (Instr Label Symbol) :=
  [.movl (.imm (-8192)) (.reg r), .andl .esp (.reg r)]

def compareList : List UInt32 :=
  [1, 2, 3, 4, 5, 6, 7, 8, 9, 10, 11, 12, 13, 14, 15, 16, 18, 19, 20, 21, 22, 23, 24, 25, 26, 27,
   28, 29, 30, 33, 34, 36, 37, 38, 39, 40, 41, 42, 43, 45, 46, 47, 48, 49, 50, 51, 52, 54, 55, 57,
   59, 60, 61, 62, 63, 64, 65, 66, 67, 68, 69, 70, 71, 72, 73, 74, 75, 76, 77, 78, 79, 80, 81, 82,
   83, 84, 85, 86, 87, 88, 89, 90, 91, 92, 93, 94, 95, 96, 97, 99, 100, 101, 102, 103, 104, 105,
   106, 107, 108, 109, 110, 111, 113, 114, 115, 116, 117, 118, 119, 120, 121, 122, 123, 124, 125,
   126, 127, 128, 129, 130, 131, 132, 133, 134, 135, 136, 138, 139, 140, 141, 142, 143, 144, 145,
   146, 147, 148, 149, 150, 151, 152, 153, 154, 155, 156, 157, 158, 159, 160, 161, 162, 163, 164,
   165, 166, 167, 168, 169, 170, 171, 172, 173, 174, 175, 176, 177, 178, 179, 180, 181, 182, 183,
   184, 185, 186, 187, 190, 191, 192, 193, 194, 195, 196, 197, 198, 199, 200, 201, 202, 203, 204,
   205, 206, 207, 208, 209, 210, 211, 212, 213, 214, 215, 216, 217, 218, 219, 220, 221, 224, 225]

def compareChain (ks : List UInt32) : Code :=
  ks.flatMap fun k => instrs [.cmpl (.imm k) (.frame ORIG_EAX), .je .auditsys]

def auditsys : Code :=
  .label .auditsys :: instrs
    [.pushl eax,
     .pushl (.val (.frame 0x28)),
     .call .syscallAudit,
     .popl .eax,
     .popl .eax,
     .jmp .retFromSysCall]

def tracesys (nrSyscalls : UInt32) : Code :=
  .label .tracesys :: instrs
    [.movl (.imm (-enosys)) (.frame EAX),
     .call .syscallTrace,
     .movl (.val (.frame ORIG_EAX)) (.reg .eax),
     .cmpl (.imm nrSyscalls) (.reg .eax),
     .jae .tracesysExit,
     .callTable .sysCallTable .eax,
     .movl eax (.frame EAX)]

def tracesysExit : Code :=
  .label .tracesysExit :: instrs [.call .syscallTrace, .jmp .retFromSysCall]

def badsys : Code :=
  .label .badsys :: instrs [.movl (.imm (-enosys)) (.frame EAX), .jmp .retFromSysCall]

/-- The first three lines after `ENTRY(system_call)`. -/
def prologue (kernelDs : UInt32) : List (Instr Label Symbol) :=
  .pushl eax :: (saveAll kernelDs ++ getCurrent .ebx)

/-- From there to the compare chain. -/
def systemCall (nrSyscalls : UInt32) : Code :=
  instrs
    [.cmpl (.imm nrSyscalls) (.reg .eax),
     .jae .badsys,
     .testb PT_TRACESYS tskPtrace .ebx,
     .jne .tracesys,
     .callTable .sysCallTable .eax,
     .movl eax (.frame EAX)]

/-- What follows the chain. The code of `ret_from_sys_call` itself is left out. -/
def rejoin (nrSyscalls : UInt32) : Code :=
  .label .retFromSysCall :: (auditsys ++ (tracesys nrSyscalls ++ (tracesysExit ++ badsys)))

def listing (nrSyscalls kernelDs : UInt32) : Code :=
  .label .systemCall :: (instrs (prologue kernelDs) ++ (systemCall nrSyscalls ++
    (compareChain compareList ++ rejoin nrSyscalls)))

end SystemCall
