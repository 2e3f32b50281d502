import LinuxDriver.Sscanf
import Mathlib.Logic.Function.Basic

/-!
# The kernel state behind the sys2 setters

Tasks, devices, pids and sockets are objects at addresses; the lists and tables that lead to
them are separate. The five setters are translated with the references they take on the way.
-/

open CString

namespace Sys2

structure Socket where
  sk : Option ℕ
  deriving DecidableEq, Repr

/-- An open file: `file_inode(file)->i_mode` and `private_data`. -/
structure File where
  iMode : UInt16
  privateData : Option Socket
  deriving DecidableEq, Repr

def sIsSock (mode : UInt16) : Bool := mode &&& 0o170000 = 0o140000

structure Task where
  pid : ℤ
  uid : UInt32
  nice : ℤ
  files : Option (List (Option File))
  deriving DecidableEq, Repr

structure NetDevice where
  name : List UInt8
  mtu : ℤ
  refcnt : ℕ
  deriving DecidableEq, Repr

structure Pid where
  count : ℕ
  task : Option ℕ
  deriving DecidableEq, Repr

structure Sock where
  userlocks : UInt8
  rcvbuf : ℤ
  sndbuf : ℤ
  deriving DecidableEq, Repr

/-- What the setters can see. `processes` is the order of `for_each_process`, `deviceList` the
devices of `init_net`, `pidHash` the lookup of `find_get_pid`. -/
structure System where
  task : ℕ → Task
  processes : List ℕ
  device : ℕ → NetDevice
  deviceList : List ℕ
  pid : ℕ → Pid
  pidHash : ℤ → Option ℕ
  sock : ℕ → Sock

/-- The system and the read-lock nesting of the running task. -/
structure Kernel extends System where
  rcuDepth : ℕ

def minNice : ℤ := -20
def maxNice : ℤ := 19
def einval : ℤ := 22
def esrch : ℤ := 3
def enodev : ℤ := 19
def sndbufLock : UInt8 := 1
def rcvbufLock : UInt8 := 2

def invalidUid : UInt32 := 0xffffffff

namespace System

variable (sys : System)

def setTask (t : ℕ) (task : Task) : System :=
  { sys with task := Function.update sys.task t task }

def setDevice (d : ℕ) (dev : NetDevice) : System :=
  { sys with device := Function.update sys.device d dev }

def setPid (p : ℕ) (pid : Pid) : System :=
  { sys with pid := Function.update sys.pid p pid }

def setSock (k : ℕ) (sk : Sock) : System :=
  { sys with sock := Function.update sys.sock k sk }

/-- `set_user_nice` does nothing when the value is set already or out of range. -/
def setUserNice (t : ℕ) (nice : ℤ) : System :=
  if (sys.task t).nice = nice ∨ nice < minNice ∨ maxNice < nice then sys
  else sys.setTask t { sys.task t with nice }

def devHold (d : ℕ) : System :=
  sys.setDevice d { sys.device d with refcnt := (sys.device d).refcnt + 1 }

def devPut (d : ℕ) : System :=
  sys.setDevice d { sys.device d with refcnt := (sys.device d).refcnt - 1 }

def writeMtu (d : ℕ) (mtu : ℤ) : System := sys.setDevice d { sys.device d with mtu }

def lookupDevice (name : List UInt8) : Option ℕ :=
  sys.deviceList.find? fun d => (sys.device d).name = name

def devGetByName (name : List UInt8) : Option (ℕ × System) :=
  (sys.lookupDevice name).map fun d => (d, sys.devHold d)

def getPid (p : ℕ) : System := sys.setPid p { sys.pid p with count := (sys.pid p).count + 1 }

def putPid (p : ℕ) : System := sys.setPid p { sys.pid p with count := (sys.pid p).count - 1 }

def findGetPid (nr : ℤ) : Option (ℕ × System) :=
  (sys.pidHash nr).map fun p => (p, sys.getPid p)

def writeBufSizes (k : ℕ) (rcv snd : ℤ) : System :=
  sys.setSock k
    { userlocks := (sys.sock k).userlocks ||| (rcvbufLock ||| sndbufLock)
      rcvbuf := rcv
      sndbuf := snd }

end System

def Kernel.rcuReadLock (k : Kernel) : Kernel := { k with rcuDepth := k.rcuDepth + 1 }

def Kernel.rcuReadUnlock (k : Kernel) : Kernel := { k with rcuDepth := k.rcuDepth - 1 }

/-- The loop of `trim_trailing_whitespace`, from the last byte backwards. -/
def trimLoop : List UInt8 → List UInt8
  | c :: d :: rest => if isspace c then trimLoop (d :: rest) else c :: d :: rest
  | str => str

def trimTrailingWhitespace (str : List UInt8) : List UInt8 := (trimLoop str.reverse).reverse

theorem trimLoop_of_isspace {str : List UInt8} (h : ∀ c ∈ str, isspace c = false) :
    trimLoop str = str := by
  cases str with
  | nil => rfl
  | cons c rest =>
      cases rest with
      | nil => rfl
      | cons d rest => rw [trimLoop, h c List.mem_cons_self]; rfl

theorem trimTrailingWhitespace_of_isspace {str : List UInt8}
    (h : ∀ c ∈ str, isspace c = false) : trimTrailingWhitespace str = str := by
  rw [trimTrailingWhitespace, trimLoop_of_isspace fun c hc => h c (List.mem_reverse.1 hc),
    List.reverse_reverse]

/-- `for_each_process(task)` with a conditional `set_user_nice(task, nice)` in its body. -/
def niceLoop (selected : Task → Bool) (nice : ℤ) (sys : System) : System :=
  sys.processes.foldl
    (fun sys t => if selected (sys.task t) then sys.setUserNice t nice else sys) sys

def setAllTaskNice (param : List UInt8) (sys : System) : System :=
  match scanD param with
  | some niceValue =>
      if niceValue ≥ -20 ∧ niceValue ≤ 19 then
        niceLoop (fun task => task.pid ≠ 0) niceValue sys
      else sys
  | none => sys

/-- The kernel uid that an `int` names; `makeKuid` is the map of `current_user_ns()`. -/
def kuidOf (makeKuid : UInt32 → UInt32) (uid : ℤ) : UInt32 := makeKuid (UInt32.ofInt uid)

def setUserNiceByUid (makeKuid : UInt32 → UInt32) (param : List UInt8) (sys : System) :
    System :=
  match scanDD param with
  | some (uid, niceValue) =>
      let kuid := kuidOf makeKuid uid
      if kuid = invalidUid then sys
      else if niceValue < -20 ∨ niceValue > 19 then sys
      else niceLoop (fun task => task.pid ≠ 0 && task.uid = kuid) niceValue sys
  | none => sys

def setThreadPriorityIn (param : List UInt8) (sys : System) : System × ℤ :=
  if param = [] then (sys, -einval)
  else match scanDD param with
    | some (tid, newPriority) =>
        match sys.findGetPid tid with
        | none => (sys, -esrch)
        | some (pidStruct, sys) =>
            match (sys.pid pidStruct).task with
            | none => (sys.putPid pidStruct, -esrch)
            | some thread =>
                let sys := sys.putPid pidStruct
                if newPriority < minNice ∨ newPriority > maxNice then (sys, -einval)
                else (sys.setUserNice thread newPriority, 0)
    | none => (sys, -einval)

def setmtuIn (param : List UInt8) (sys : System) : System × ℤ :=
  if param = [] then (sys, -einval)
  else match scanSD param with
    | some (interfaceName, newMtu) =>
        match sys.devGetByName (trimTrailingWhitespace interfaceName) with
        | none => (sys, -enodev)
        | some (dev, sys) =>
            if newMtu < 68 ∨ newMtu > 65535 then (sys.devPut dev, -einval)
            else ((sys.writeMtu dev newMtu).devPut dev, 0)
    | none => (sys, -einval)

def File.sk (file : File) : Option ℕ :=
  if sIsSock file.iMode then file.privateData.bind Socket.sk else none

/-- The loop over the file descriptors from `lfd` on; `some` is the return from inside it. -/
def fdLoop (fd rcv snd : ℤ) (sys : System) : ℕ → List (Option File) → Option System
  | _, [] => none
  | lfd, none :: fdt => fdLoop fd rcv snd sys (lfd + 1) fdt
  | lfd, some file :: fdt =>
      if (lfd : ℤ) ≠ fd then fdLoop fd rcv snd sys (lfd + 1) fdt
      else match file.sk with
        | some sk => some (sys.writeBufSizes sk rcv snd)
        | none => fdLoop fd rcv snd sys (lfd + 1) fdt

/-- The loop over the processes. The return from inside the inner loop comes before its
`rcu_read_unlock`. -/
def socketLoop (pid fd rcv snd : ℤ) (k : Kernel) : List ℕ → Kernel × ℤ
  | [] => (k, -enodev)
  | t :: ts =>
      if (k.task t).pid ≠ pid then socketLoop pid fd rcv snd k ts
      else match (k.task t).files with
        | none => socketLoop pid fd rcv snd k ts
        | some fdt =>
            let k := k.rcuReadLock
            match fdLoop fd rcv snd k.toSystem 0 fdt with
            | some sys => ({ k with toSystem := sys }, 0)
            | none => socketLoop pid fd rcv snd k.rcuReadUnlock ts

def setsocketsizeIn (param : List UInt8) (k : Kernel) : Kernel × ℤ :=
  match scanDDDD param with
  | some (pid, fd, newRcvSize, newSndSize) =>
      socketLoop pid fd newRcvSize newSndSize k k.processes
  | none => (k, -einval)

end Sys2
