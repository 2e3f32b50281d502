import LinuxDriver.Sys2Setters
import LinuxDriver.UserCopy

/-!
# The sys2 commands that show and clear an interface

`showinterface_in` and `clearinterface_in` copy at most 15 bytes of their parameter as the name
of a device. One prints what `dev_get_stats` reports, the other clears memory from `dev->stats`
on.
-/

open CString UserCopy

namespace CString

/-- `strncpy(dst, src, n)`: what it writes to `dst`. -/
def strncpy (src : List UInt8) (n : ℕ) : List UInt8 :=
  (text src).take n ++ List.replicate (n - ((text src).take n).length) 0

theorem text_strncpy (src : List UInt8) (n : ℕ) :
    text (strncpy src n ++ [0]) = (text src).take n := by
  have hz := zero_notMem_take_text src n
  rw [strncpy, List.append_assoc, ← List.replicate_succ', List.replicate_succ]
  exact text_append_zero hz _

end CString

namespace Sys2

def ifnamsiz : ℕ := 16

/-- The counters that `showinterface_in` prints. -/
inductive Counter where
  | rxPackets
  | rxBytes
  | rxErrors
  | rxDropped
  | txPackets
  | txBytes
  | txErrors
  | txDropped
  deriving DecidableEq, Repr

def Counter.all : List Counter :=
  [.rxPackets, .rxBytes, .rxErrors, .rxDropped, .txPackets, .txBytes, .txErrors, .txDropped]

def Counter.index : Counter → ℕ
  | .rxPackets => 0
  | .txPackets => 1
  | .rxBytes => 2
  | .txBytes => 3
  | .rxErrors => 4
  | .txErrors => 5
  | .rxDropped => 6
  | .txDropped => 7

/-- The sizes of a machine: bytes of an `unsigned long`, words of `struct rtnl_link_stats64`. -/
structure Machine where
  wordSize : ℕ
  word : wordSize = 4 ∨ wordSize = 8
  stats64Words : ℕ
  words : 24 ≤ stats64Words

def Machine.sizeofStats (m : Machine) : ℕ := 23 * m.wordSize

/-- `sizeof(struct rtnl_link_stats64)`. -/
def Machine.sizeofStats64 (m : Machine) : ℕ := 8 * m.stats64Words

/-- What the two commands see of a `net_device`: `mem` is its memory from `dev->stats` on, and
`getStats` what the callback of its driver reports. -/
structure Interface where
  devAddr : List UInt8
  mem : ℕ → UInt8
  getStats : Option ((ℕ → UInt8) → Counter → UInt64)

structure NetSystem extends System where
  interface : ℕ → Interface

/-- The little-endian word at an index. -/
def loadWord (size : ℕ) (mem : ℕ → UInt8) (i : ℕ) : UInt64 :=
  UInt64.ofNat ((List.range size).foldr (fun j n => (mem (size * i + j)).toNat + 256 * n) 0)

def devGetStats (m : Machine) (dev : Interface) (c : Counter) : UInt64 :=
  match dev.getStats with
  | some report => report dev.mem c
  | none => loadWord m.wordSize dev.mem c.index

/-- `memset(&dev->stats, 0, n)`. -/
def Interface.clear (dev : Interface) (n : ℕ) : Interface :=
  { dev with mem := store (List.replicate n 0) dev.mem }

inductive StatsLine where
  | name (name : List UInt8)
  | mtu (mtu : ℤ)
  | mac (addr : List UInt8)
  | counter (c : Counter) (value : UInt64)
  deriving DecidableEq, Repr

/-- What a command leaves: the system, what it returns, its variable `dev` and the statistics
that it prints. -/
structure Outcome where
  sys : NetSystem
  ret : ℤ
  dev : Option ℕ
  printed : List StatsLine

/-- The array `interface_name` after the copy and the trim. -/
def interfaceName (param : List UInt8) : List UInt8 :=
  trimTrailingWhitespace (text (strncpy param (ifnamsiz - 1) ++ [0]))

def showinterfaceIn (m : Machine) (param : List UInt8) (sys : NetSystem) : Outcome :=
  if text param = [] then ⟨sys, -einval, none, []⟩
  else match sys.devGetByName (interfaceName param) with
    | none => ⟨sys, -enodev, none, []⟩
    | some (dev, held) =>
        let sys := { sys with toSystem := held }
        let stats := devGetStats m (sys.interface dev)
        ⟨{ sys with toSystem := sys.devPut dev }, 0, some dev,
          [.name (sys.device dev).name, .mtu (sys.device dev).mtu,
            .mac (sys.interface dev).devAddr] ++ Counter.all.map fun c => .counter c (stats c)⟩

def clearinterfaceIn (m : Machine) (param : List UInt8) (sys : NetSystem) : Outcome :=
  if text param = [] then ⟨sys, -einval, none, []⟩
  else match sys.devGetByName (interfaceName param) with
    | none => ⟨sys, -enodev, none, []⟩
    | some (dev, held) =>
        let sys := { sys with
          toSystem := held
          interface := Function.update sys.interface dev
            ((sys.interface dev).clear m.sizeofStats64) }
        ⟨{ sys with toSystem := sys.devPut dev }, 0, some dev, []⟩

def interfaceDevice (sys : System) (param : List UInt8) : Option ℕ :=
  if text param = [] then none else sys.lookupDevice (interfaceName param)

variable {m : Machine} {param : List UInt8} {sys : NetSystem}

theorem showinterfaceIn_of_empty (h : text param = []) :
    showinterfaceIn m param sys = ⟨sys, -einval, none, []⟩ := if_pos h

theorem clearinterfaceIn_of_empty (h : text param = []) :
    clearinterfaceIn m param sys = ⟨sys, -einval, none, []⟩ := if_pos h

theorem showinterfaceIn_of_absent (h : text param ≠ [])
    (hdev : interfaceDevice sys.toSystem param = none) :
    showinterfaceIn m param sys = ⟨sys, -enodev, none, []⟩ := by
  rw [interfaceDevice, if_neg h] at hdev
  rw [showinterfaceIn, if_neg h, System.devGetByName, hdev]
  rfl

theorem clearinterfaceIn_of_absent (h : text param ≠ [])
    (hdev : interfaceDevice sys.toSystem param = none) :
    clearinterfaceIn m param sys = ⟨sys, -enodev, none, []⟩ := by
  rw [interfaceDevice, if_neg h] at hdev
  rw [clearinterfaceIn, if_neg h, System.devGetByName, hdev]
  rfl

theorem text_ne_nil_of_device {d : ℕ} (h : interfaceDevice sys.toSystem param = some d) :
    text param ≠ [] := by
  intro hempty
  rw [interfaceDevice, if_pos hempty] at h
  contradiction

theorem lookupDevice_of_device {d : ℕ} (h : interfaceDevice sys.toSystem param = some d) :
    sys.lookupDevice (interfaceName param) = some d := by
  rwa [interfaceDevice, if_neg (text_ne_nil_of_device h)] at h

/-- Showing leaves the system as it was, its reference to the device given back. -/
theorem showinterfaceIn_of_device {d : ℕ} (h : interfaceDevice sys.toSystem param = some d) :
    showinterfaceIn m param sys = ⟨sys, 0, some d,
      [.name (sys.device d).name, .mtu (sys.device d).mtu, .mac (sys.interface d).devAddr] ++
        Counter.all.map fun c => .counter c (devGetStats m (sys.interface d) c)⟩ := by
  have hheld : (sys.devHold d).device d =
      { sys.device d with refcnt := (sys.device d).refcnt + 1 } := System.setDevice_device ..
  rw [showinterfaceIn, if_neg (text_ne_nil_of_device h), System.devGetByName,
    lookupDevice_of_device h]
  simp only [Option.map_some, System.devPut_devHold, hheld]

/-- Clearing changes the memory of the device from its statistics on. -/
theorem clearinterfaceIn_of_device {d : ℕ} (h : interfaceDevice sys.toSystem param = some d) :
    clearinterfaceIn m param sys =
      ⟨{ sys with
          interface := Function.update sys.interface d
            ((sys.interface d).clear m.sizeofStats64) }, 0, some d, []⟩ := by
  rw [clearinterfaceIn, if_neg (text_ne_nil_of_device h), System.devGetByName,
    lookupDevice_of_device h]
  simp only [Option.map_some, System.devPut_devHold]

theorem showinterfaceIn_dev (m : Machine) (param : List UInt8) (sys : NetSystem) :
    (showinterfaceIn m param sys).dev = interfaceDevice sys.toSystem param := by
  by_cases hempty : text param = []
  · rw [showinterfaceIn_of_empty hempty, interfaceDevice, if_pos hempty]
  cases hdev : interfaceDevice sys.toSystem param with
  | none => rw [showinterfaceIn_of_absent hempty hdev]
  | some d => rw [showinterfaceIn_of_device hdev]

theorem clearinterfaceIn_dev (m : Machine) (param : List UInt8) (sys : NetSystem) :
    (clearinterfaceIn m param sys).dev = interfaceDevice sys.toSystem param := by
  by_cases hempty : text param = []
  · rw [clearinterfaceIn_of_empty hempty, interfaceDevice, if_pos hempty]
  cases hdev : interfaceDevice sys.toSystem param with
  | none => rw [clearinterfaceIn_of_absent hempty hdev]
  | some d => rw [clearinterfaceIn_of_device hdev]

def amd64 : Machine := ⟨8, Or.inr rfl, 24, Nat.le_refl 24⟩

def oneInterface (name : List UInt8) (interface : Interface) : NetSystem where
  task _ := ⟨1, 0, 0, none⟩
  processes := []
  device _ := ⟨name, 1500, 1⟩
  deviceList := [0]
  pid _ := ⟨0, none⟩
  pidHash _ := none
  sock _ := ⟨0, 0, 0⟩
  interface _ := interface

end Sys2
