import LinuxDriver.AuditDelivery
import LinuxDriver.CString
import LinuxDriver.FixedFormat

/-!
# What the audit daemon prints

`auditd` calls `audit` in a loop and prints every record that a call reports. It sees the records
as bytes, through a declaration of its own of `struct syscall_buf`: the sign of some members
differs, and the length of `comm` is a macro that its headers do not define.
-/

open CString Interleaving FixedFormat

namespace Audit

structure Printed where
  serial : Int32
  tsSec : Int32
  tsMicro : Int32
  syscall : Int32
  status : Int32
  pid : Int32
  uid : Int32
  euid : Int32
  device : Int32
  comm : List UInt8
  deriving DecidableEq

/-- The lines that the record deserves: unsigned numbers are printed with `%d` too. -/
def SyscallBuf.printed (r : SyscallBuf) : Printed where
  serial := r.serial.toInt32
  tsSec := r.tsSec.toInt32
  tsMicro := r.tsMicro.toInt32
  syscall := r.syscall.toInt32
  status := r.status.toInt32
  pid := r.pid
  uid := r.uid.toInt32
  euid := r.euid.toInt32
  device := r.device
  comm := text r.comm.toList

section Daemon

variable (commSize' : ℕ)

end Daemon

section Runs

variable {ι : Type*} [DecidableEq ι] {w w' : World ι} {n : ℕ}

def Terminated (w : World ι) : Prop := ∀ r ∈ w.accepted, 0 ∈ r.comm.toList

end Runs

/-! ## A daemon with another length for `comm` -/

end Audit
