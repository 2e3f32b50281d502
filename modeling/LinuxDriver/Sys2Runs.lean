import LinuxDriver.Sys2NiceInit
import LinuxDriver.Sys2Parse
import LinuxDriver.Sys2ProcessFd
import LinuxDriver.Sys2SetmtuBuffer

/-!
# The whole of sys2 over a run of writes

A write is dispatched through the table and its handler works on the kernel. Where the lists
lead and what names, pids and uids are never changes, so every command finds the targets that
it would have found at load; of the commands with the same target the last one counts. What
accumulates is what is never given back: a read-lock for each socket set, and each copy of
`parse_command`.
-/

open CString Interleaving UserCopy

namespace Sys2

attribute [ext] System

namespace Request

variable (sys : System)

def isBufSizes : Request → Bool
  | .bufSizes _ _ _ => true
  | _ => false

end Request

namespace System

variable (sys : System)

end System

/-- What does not change while the module is loaded. -/
structure Platform where
  machine : Machine
  makeKuid : UInt32 → UInt32
  iSize : ℕ → ℕ → ℤ

/-- The loaded module: its array, the kernel and the memory that its commands work on. -/
structure MyModule extends Kernel where
  interface : ℕ → Interface
  live : Heap
  myData : MyData

def MyModule.net (s : MyModule) : NetSystem := { s.toSystem with interface := s.interface }

/-- What is left when a command has returned. The ones that only print leave nothing. `copy` is
what `kstrdup` returns. -/
def Handler.run (p : Platform) (copy : Option ℕ) (param : List UInt8) (s : MyModule) :
    Handler → MyModule
  | .showtasklist | .printTaskInfo | .showkernelsymbol | .showallthread => s
  | .parseCommand =>
      { s with live :=
          (Sys2.parseCommand ((text param).length + 2) s.live param copy).elim s.live Parsed.live }
  | .setUserNiceByUid => { s with toSystem := Sys2.setUserNiceByUid p.makeKuid param s.toSystem }
  | .setAllTaskNice => { s with toSystem := Sys2.setAllTaskNice param s.toSystem }
  | .setThreadPriority => { s with toSystem := (setThreadPriorityIn param s.toSystem).1 }
  | .showinterface =>
      let sys := (showinterfaceIn p.machine param s.net).sys
      { s with toSystem := sys.toSystem, interface := sys.interface }
  | .setmtu => { s with toSystem := (setmtuIn param s.toSystem).1 }
  | .clearinterface =>
      let sys := (clearinterfaceIn p.machine param s.net).sys
      { s with toSystem := sys.toSystem, interface := sys.interface }
  | .showprocessfd => { s with toKernel := (showprocessfdIn p.iSize param s.toKernel).1 }
  | .setsocketsize => { s with toKernel := (setsocketsizeIn param s.toKernel).1 }

/-- A write, and what `kstrdup` returns if it comes to be called. -/
structure Write where
  buf : List UInt8
  copy : Option ℕ

instance (d : MyData) (buf : List UInt8) (count : ℕ) : Decidable (SetmtuInside d buf count) :=
  inferInstanceAs (Decidable (∀ c ∈ (myDataStore d buf count).calls, c.handler = .setmtu →
    (setmtuStores c.param).length ≤ ifnamsiz))

/-- A write to the attribute; `none` when `setmtu` writes beyond its array. A block that
`kstrdup` returns was not live. -/
def MyModule.store (p : Platform) (s : MyModule) (w : Write) : Option MyModule :=
  let st := myDataStore s.myData w.buf w.buf.length
  if SetmtuInside s.myData w.buf w.buf.length ∧ w.copy.all (!s.live ·) then
    some (st.calls.foldl (fun s c => c.handler.run p w.copy c.param s)
      { s with myData := st.myData })
  else none

/-- A call with what its `kstrdup` returns. -/
structure Issued extends Call where
  copy : Option ℕ

def Write.calls (d : MyData) (w : Write) : List Issued :=
  (myDataStore d w.buf w.buf.length).calls.map fun c => ⟨c, w.copy⟩

def issued : MyData → List Write → List Issued
  | _, [] => []
  | d, w :: ws => w.calls d ++ issued (d.snprintf w.buf) ws

def Handler.setter : Handler → Option Setter
  | .setUserNiceByUid => some .setniceuser
  | .setAllTaskNice => some .setnice
  | .setThreadPriority => some .setthreadpriority
  | .setmtu => some .setmtu
  | .setsocketsize => some .setsocketsize
  | _ => none

namespace MyModule

variable (p : Platform) (s : MyModule)

def asked (c : Issued) : Option Request :=
  c.handler.setter.bind (s.requested p.makeKuid c.param)

def clears (d : ℕ) (c : Issued) : Bool :=
  c.handler = .clearinterface ∧ interfaceDevice s.toSystem c.param = some d

def copies (b : ℕ) (c : Issued) : Bool := c.handler = .parseCommand ∧ c.copy = some b

structure Carried (c : Issued) (s' : MyModule) : Prop where
  system : s'.toSystem = s.fulfil (s.asked p c)
  rcuDepth : s'.rcuDepth = s.rcuDepth + ((s.asked p c).toList.countP Request.isBufSizes)
  interface : ∀ d, s'.interface d =
    if s.clears d c then (s.interface d).clear p.machine.sizeofStats64 else s.interface d
  live : ∀ b, s'.live b = (s.live b || copies b c)
  myData : s'.myData = s.myData

variable {p s} {handler : Handler} {param : List UInt8} {copy : Option ℕ}

theorem clears_of_ne (c : Call) (h : c.handler ≠ .clearinterface) (d : ℕ) :
    s.clears d ⟨c, copy⟩ = false := decide_eq_false fun hc => h hc.1

theorem copies_of_ne (c : Call) (h : c.handler ≠ .parseCommand) (b : ℕ) :
    copies b ⟨c, copy⟩ = false := decide_eq_false fun hc => h hc.1

theorem Carried.same (hsetter : handler.setter = none) (hclear : handler ≠ .clearinterface)
    (hparse : handler ≠ .parseCommand) : s.Carried p ⟨⟨handler, param⟩, copy⟩ s := by
  have hasked : s.asked p ⟨⟨handler, param⟩, copy⟩ = none := by
    rw [asked, hsetter, Option.bind_none]
  constructor
  · rw [hasked]
    rfl
  · rw [hasked]
    rfl
  · intro d
    rw [clears_of_ne ⟨handler, param⟩ hclear]
    rfl
  · intro b
    rw [copies_of_ne ⟨handler, param⟩ hparse, Bool.or_false]
  · rfl

end MyModule

namespace MyModule

variable {p : Platform} {s : MyModule}

end MyModule

end Sys2
