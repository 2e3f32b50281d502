import LinuxDriver.CharDevice

/-!
# dtsofled: load and unload

`dtsofled/dtsofled.c`. Four registrations, the device tree node `/alphaled` with three of its
properties, and five register mappings. The labels of the unwind chain are definitions here.
-/

open ResourceLedger KernelCalls CharDevice

namespace Dtsofled

inductive Register
  | IMX6U_CCM_CCGR1
  | SW_MUX_GPIO1_I003
  | SW_PAD_GPIO1_I003
  | GPIO1_DR
  | GPIO1_GDIR
  deriving DecidableEq

abbrev Resource := CharDevice.Resource Register

/-- `dtsled` and the pointers to the mapped registers. -/
abbrev Statics := Chrdev (Register → Ptr)

/-- A device tree node as the `of_property_read` functions see it. -/
structure Node where
  status : Except Errno (List UInt8)
  compatible : Except Errno (List UInt8)
  reg : Except Errno (List UInt32)

structure Outcome extends Registration where
  allocChrdevRegion : Except Errno DevT
  node : Option Node
  ioremap : Register → UInt32 → UInt32 → Option ℕ

def eoverflow : Errno := ⟨-75, by decide⟩

/-- The cells stored from `out[0]` on: `sz` cells or none. -/
def ofPropertyReadU32Array (reg : Except Errno (List UInt32)) (sz : ℕ) :
    Except Errno (List UInt32) :=
  match reg with
  | .error e => .error e
  | .ok cells => if sz ≤ cells.length then .ok (cells.take sz) else .error eoverflow

def regdataLength : ℕ := 10

/-- `sizeof(regdata)`, which init passes as the number of cells. -/
def sizeofRegdata : ℕ := regdataLength * 4

/-- The indices of `regdata` that hold the address and the size of a register. -/
def Register.cells : Register → ℕ × ℕ
  | .IMX6U_CCM_CCGR1 => (0, 1)
  | .SW_MUX_GPIO1_I003 => (2, 3)
  | .SW_PAD_GPIO1_I003 => (4, 5)
  | .GPIO1_DR => (6, 7)
  | .GPIO1_GDIR => (8, 9)

def registers : List Register :=
  [.IMX6U_CCM_CCGR1, .SW_MUX_GPIO1_I003, .SW_PAD_GPIO1_I003, .GPIO1_DR, .GPIO1_GDIR]

abbrev Init := CharDevice.Init (Register → Ptr) Register

def failFindnd (a : Init) : Init :=
  failDevice (a.emit (.release (.device a.data.cls a.data.devid)))

def failRs (a : Init) : Init := failFindnd a

def Outcome.mapping (o : Outcome) (regdata : List UInt32) (m : Register) : Option ℕ :=
  o.ioremap m (regdata.getD m.cells.1 0) (regdata.getD m.cells.2 0)

def assign (o : Outcome) (regdata : List UInt32) (a : Init) (m : Register) : Init :=
  create a (fun g p => { g with own := Function.update g.own m p }) (.mapping m)
    (.ofNullable (o.mapping regdata m))

/-- The five assignments; no result is looked at. -/
def mapRegisters (a : Init) (o : Outcome) (regdata : List UInt32) : Init :=
  registers.foldl (assign o regdata) a

def readReg (a : Init) (o : Outcome) (nd : Node) : Init :=
  match ofPropertyReadU32Array nd.reg sizeofRegdata with
  | .error e => failRs { a with ret := e }
  | .ok regdata => { mapRegisters { a with ret := 0 } o regdata with ret := 0 }

def readCompatible (a : Init) (o : Outcome) (nd : Node) : Init :=
  match nd.compatible with
  | .error e => failRs { a with ret := e }
  | .ok _ => readReg { a with ret := 0 } o nd

def readStatus (a : Init) (o : Outcome) (nd : Node) : Init :=
  match nd.status with
  | .error e => failRs { a with ret := e }
  | .ok _ => readCompatible { a with ret := 0 } o nd

/-- `of_find_node_by_path` reports a missing node by NULL, and `ret` stays as it is. -/
def findNode (o : Outcome) (a : Init) : Init :=
  match o.node with
  | none => failFindnd a
  | some nd => readStatus a o nd

/-- `dtsled.major` is set to 0 first, so the device number is always allocated. -/
def dtsofledInit (g : Statics) (o : Outcome) : Init :=
  let a := allocDevid g o.allocChrdevRegion
  if a.ret < 0 then failDevid a else addCdev o.toRegistration (findNode o) a

/-- `readl` and `writel` on `GPIO1_DR`, then the releases. -/
def dtsofledExit (g : Statics) : Statics × List (Event Resource) :=
  (g, [.access (.mapping .GPIO1_DR (g.own .GPIO1_DR)),
      .access (.mapping .GPIO1_DR (g.own .GPIO1_DR))] ++
    registers.map (fun m => .release (.mapping m (g.own m))) ++
    [.release .cdev, .release (.region g.devid), .release (.device g.cls g.devid),
      .release (.cls g.cls)])

def driver : Driver Statics Outcome Resource where
  fresh := ⟨0, .null, .null, 0, 0, fun _ => .null⟩
  init := dtsofledInit
  exit := dtsofledExit
  holdings g := g.registered ++ registers.map fun m => .mapping m (g.own m)

end Dtsofled
