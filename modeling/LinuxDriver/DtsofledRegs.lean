import LinuxDriver.DtsofledLedger

/-!
# The register table of dtsofled

`dtsofled_init` reads the property `reg` into an array of ten cells and passes the size of the
array in bytes as the number of cells. A record is kept of the cells that are stored and of the
calls of `ioremap`; without the record this is the init routine of the driver.
-/

open ResourceLedger KernelCalls CharDevice

namespace Dtsofled

structure Ioremap where
  register : Register
  address : UInt32
  size : UInt32
  deriving DecidableEq

/-- The mapped registers, the indices from `regdata` on at which a cell was stored, and the calls
of `ioremap`. -/
structure Recorded where
  own : Register → Ptr
  stored : List ℕ
  calls : List Ioremap

namespace Recorded

abbrev Init := CharDevice.Init Recorded Register

def failFindnd (a : Init) : Init :=
  failDevice (a.emit (.release (.device a.data.cls a.data.devid)))

def failRs (a : Init) : Init := failFindnd a

def record (a : Init) (f : Recorded → Recorded) : Init :=
  { a with data := { a.data with own := f a.data.own } }

def store (cells : List UInt32) (r : Recorded) : Recorded :=
  { r with stored := r.stored ++ List.range cells.length }

def call (regdata : List UInt32) (m : Register) (r : Recorded) : Recorded :=
  { r with
    calls := r.calls ++ [⟨m, regdata.getD m.cells.1 0, regdata.getD m.cells.2 0⟩] }

def assign (o : Outcome) (regdata : List UInt32) (a : Init) (m : Register) : Init :=
  create (record a (call regdata m))
    (fun g p => { g with own := { g.own with own := Function.update g.own.own m p } })
    (.mapping m) (.ofNullable (o.mapping regdata m))

def mapRegisters (a : Init) (o : Outcome) (regdata : List UInt32) : Init :=
  registers.foldl (assign o regdata) a

def readReg (a : Init) (o : Outcome) (nd : Node) : Init :=
  match ofPropertyReadU32Array nd.reg sizeofRegdata with
  | .error e => failRs { a with ret := e }
  | .ok regdata =>
      let a := record { a with ret := 0 } (store regdata)
      { mapRegisters a o regdata with ret := 0 }

def readCompatible (a : Init) (o : Outcome) (nd : Node) : Init :=
  match nd.compatible with
  | .error e => failRs { a with ret := e }
  | .ok _ => readReg { a with ret := 0 } o nd

def readStatus (a : Init) (o : Outcome) (nd : Node) : Init :=
  match nd.status with
  | .error e => failRs { a with ret := e }
  | .ok _ => readCompatible { a with ret := 0 } o nd

def findNode (o : Outcome) (a : Init) : Init :=
  match o.node with
  | none => failFindnd a
  | some nd => readStatus a o nd

/-- The static data with an empty record. -/
def watch (g : Statics) : Chrdev Recorded :=
  ⟨g.devid, g.cls, g.device, g.major, g.minor, ⟨g.own, [], []⟩⟩

def dtsofledInit (g : Statics) (o : Outcome) : Init :=
  let a := allocDevid (watch g) o.allocChrdevRegion
  if a.ret < 0 then failDevid a else addCdev o.toRegistration (findNode o) a

end Recorded

def Outcome.Reaches (o : Outcome) (nd : Node) : Prop :=
  (∃ devid, o.allocChrdevRegion = .ok devid) ∧ o.Succeeds ∧ o.node = some nd ∧
    (∃ status, nd.status = .ok status) ∧ ∃ compatible, nd.compatible = .ok compatible

/-- Cells taken two at a time. -/
def pairs : List UInt32 → List (UInt32 × UInt32)
  | address :: size :: cells => (address, size) :: pairs cells
  | _ => []

/-- The table is stored inside `regdata`, mapped when it has ten cells and refused when it has
fewer. -/
structure ReadsTable (g : Statics) (o : Outcome) : Prop where
  inside : ∀ i ∈ (Recorded.dtsofledInit g o).data.own.stored, i < regdataLength
  maps : ∀ nd cells, o.Reaches nd → nd.reg = .ok cells → regdataLength ≤ cells.length →
    (Recorded.dtsofledInit g o).data.own.calls.map (fun c => (c.address, c.size)) =
      pairs (cells.take regdataLength)
  refuses : ∀ nd cells, o.Reaches nd → nd.reg = .ok cells → cells.length < regdataLength →
    (Recorded.dtsofledInit g o).ret < 0 ∧ (Recorded.dtsofledInit g o).data.own.calls = []

/-! ## Without the record -/

namespace Recorded

def forget (a : Init) : Dtsofled.Init := mapOwn Recorded.own a

theorem forget_assign (o : Outcome) (regdata : List UInt32) (a : Init) (m : Register) :
    forget (assign o regdata a m) = Dtsofled.assign o regdata (forget a) m := by
  rw [assign, Dtsofled.assign]
  cases o.mapping regdata m with
  | none => rfl
  | some p => rfl

theorem forget_foldl_assign (o : Outcome) (regdata : List UInt32) (ms : List Register) (a : Init) :
    forget (ms.foldl (assign o regdata) a) = ms.foldl (Dtsofled.assign o regdata) (forget a) := by
  induction ms generalizing a with
  | nil => rfl
  | cons m ms ih => rw [List.foldl_cons, List.foldl_cons, ih, forget_assign]

theorem forget_readReg (a : Init) (o : Outcome) (nd : Node) :
    forget (readReg a o nd) = Dtsofled.readReg (forget a) o nd := by
  rw [readReg, Dtsofled.readReg]
  cases ofPropertyReadU32Array nd.reg sizeofRegdata with
  | error e => rfl
  | ok regdata =>
      have hmap := forget_foldl_assign o regdata registers
        (record { a with ret := 0 } (store regdata))
      exact congrArg (fun b : Dtsofled.Init => { b with ret := 0 }) hmap

theorem forget_findNode (o : Outcome) (a : Init) :
    forget (findNode o a) = Dtsofled.findNode o (forget a) := by
  rw [findNode, Dtsofled.findNode]
  cases o.node with
  | none => rfl
  | some nd =>
      change forget (readStatus a o nd) = Dtsofled.readStatus (forget a) o nd
      rw [readStatus, Dtsofled.readStatus]
      cases nd.status with
      | error e => rfl
      | ok status =>
          change forget (readCompatible _ o nd) = Dtsofled.readCompatible _ o nd
          rw [readCompatible, Dtsofled.readCompatible]
          cases nd.compatible with
          | error e => rfl
          | ok compatible => exact forget_readReg _ o nd

theorem dtsofledInit_of_error {g : Statics} {o : Outcome} {e : Errno}
    (h : o.allocChrdevRegion = .error e) : dtsofledInit g o = allocDevid (watch g) (.error e) := by
  rw [dtsofledInit, h]
  exact if_pos e.2

theorem dtsofledInit_of_ok {g : Statics} {o : Outcome} {devid : DevT}
    (h : o.allocChrdevRegion = .ok devid) : dtsofledInit g o =
      addCdev o.toRegistration (findNode o) (allocDevid (watch g) (.ok devid)) := by
  rw [dtsofledInit, h]
  exact if_neg (Int.lt_irrefl 0)

/-- The record changes nothing of what init does. -/
theorem forget_dtsofledInit (g : Statics) (o : Outcome) :
    forget (dtsofledInit g o) = Dtsofled.dtsofledInit g o := by
  cases halloc : o.allocChrdevRegion with
  | error e =>
      rw [dtsofledInit_of_error halloc, Dtsofled.dtsofledInit, halloc]
      exact (if_pos e.2).symm
  | ok devid =>
      rw [dtsofledInit_of_ok halloc, Dtsofled.dtsofledInit, halloc]
      exact (mapOwn_addCdev (forget_findNode o)).trans (if_neg (Int.lt_irrefl 0)).symm

/-! ## What is recorded -/

section

variable {g : Statics} {o : Outcome} {nd : Node}

theorem continues_dtsofledInit {devid : DevT} (h : o.allocChrdevRegion = .ok devid) :
    Continues o.toRegistration (watch g).own (findNode o) (dtsofledInit g o) := by
  rw [dtsofledInit_of_ok h]
  exact continues_addCdev rfl

theorem exists_readReg (h : o.Reaches nd) :
    ∃ a : Init, dtsofledInit g o = readReg a o nd ∧ a.data.own = (watch g).own := by
  obtain ⟨⟨devid, halloc⟩, hsucc, hnode, ⟨status, hstatus⟩, compatible, hcomp⟩ := h
  rcases continues_dtsofledInit (g := g) halloc with ⟨hfail, -⟩ | ⟨-, a, ha, -, hown, -⟩
  · exact absurd hsucc hfail
  · refine ⟨{ a with ret := 0 }, ?_, hown⟩
    rw [ha, findNode, hnode]
    simp only [readStatus, hstatus, readCompatible, hcomp]

theorem own_findNode (a : Init) (h : ∀ nd, o.node = some nd → (∃ status, nd.status = .ok status) →
    ¬ ∃ compatible, nd.compatible = .ok compatible) : (findNode o a).data.own = a.data.own := by
  cases hnode : o.node with
  | none =>
      rw [findNode, hnode]
      rfl
  | some nd =>
      cases hstatus : nd.status with
      | error e =>
          rw [findNode, hnode]
          simp only [readStatus, hstatus]
          rfl
      | ok status =>
          cases hcomp : nd.compatible with
          | error e =>
              rw [findNode, hnode]
              simp only [readStatus, hstatus, readCompatible, hcomp]
              rfl
          | ok compatible => exact absurd ⟨compatible, hcomp⟩ (h nd hnode ⟨status, hstatus⟩)

theorem own_of_not_reaches (h : ∀ nd, ¬ o.Reaches nd) :
    (dtsofledInit g o).data.own = (watch g).own := by
  cases halloc : o.allocChrdevRegion with
  | error e =>
      rw [dtsofledInit_of_error halloc]
      rfl
  | ok devid =>
      rcases continues_dtsofledInit (g := g) halloc with ⟨hfail, -⟩ | ⟨hsucc, a, ha, -, hown, -⟩
      · rw [dtsofledInit_of_ok halloc]
        exact own_addCdev_of_not_succeeds hfail
      · rw [ha, own_findNode a, hown]
        intro nd hnode hstatus hcomp
        exact h nd ⟨⟨devid, halloc⟩, hsucc, hnode, hstatus, hcomp⟩

end

/-! ## The read -/

section

variable {o : Outcome} {nd : Node} {a : Init} {cells : List UInt32}

theorem own_foldl_assign (regdata : List UInt32) (ms : List Register) (a : Init) :
    (ms.foldl (assign o regdata) a).data.own.stored = a.data.own.stored ∧
      (ms.foldl (assign o regdata) a).data.own.calls = a.data.own.calls ++
        ms.map fun m => ⟨m, regdata.getD m.cells.1 0, regdata.getD m.cells.2 0⟩ := by
  induction ms generalizing a with
  | nil => exact ⟨rfl, (List.append_nil _).symm⟩
  | cons m ms ih =>
      obtain ⟨hstored, hcalls⟩ := ih (assign o regdata a m)
      rw [List.foldl_cons, hstored, hcalls, assign]
      cases o.mapping regdata m with
      | none => exact ⟨rfl, List.append_assoc _ _ _⟩
      | some p => exact ⟨rfl, List.append_assoc _ _ _⟩

/-- A table that is long enough is stored past the array, and mapped. -/
theorem readReg_of_le (hreg : nd.reg = .ok cells) (h : sizeofRegdata ≤ cells.length)
    (ha : a.data.own.stored = [] ∧ a.data.own.calls = []) :
    (readReg a o nd).data.own.stored = List.range sizeofRegdata ∧
      (readReg a o nd).data.own.calls = registers.map fun m =>
        ⟨m, (cells.take sizeofRegdata).getD m.cells.1 0,
          (cells.take sizeofRegdata).getD m.cells.2 0⟩ := by
  have hread : ofPropertyReadU32Array nd.reg sizeofRegdata = .ok (cells.take sizeofRegdata) := by
    rw [hreg]
    exact if_pos h
  obtain ⟨hstored, hcalls⟩ := own_foldl_assign (o := o) (cells.take sizeofRegdata) registers
    (record { a with ret := 0 } (store (cells.take sizeofRegdata)))
  rw [readReg, hread]
  constructor
  · refine hstored.trans ?_
    change a.data.own.stored ++ List.range (cells.take sizeofRegdata).length = _
    rw [ha.1, List.nil_append, List.length_take, Nat.min_eq_left h]
  · refine hcalls.trans ?_
    change a.data.own.calls ++ _ = _
    rw [ha.2, List.nil_append]

theorem readReg_of_lt (hreg : nd.reg = .ok cells) (h : cells.length < sizeofRegdata) :
    readReg a o nd = failRs { a with ret := eoverflow } := by
  have hread : ofPropertyReadU32Array nd.reg sizeofRegdata = .error eoverflow := by
    rw [hreg]
    exact if_neg (Nat.not_le.2 h)
  rw [readReg, hread]

theorem readReg_of_error {e : Errno} (hreg : nd.reg = .error e) :
    readReg a o nd = failRs { a with ret := e } := by
  have hread : ofPropertyReadU32Array nd.reg sizeofRegdata = .error e := by
    rw [hreg]
    rfl
  rw [readReg, hread]

end

end Recorded

/-! ## The table -/

section

variable {g : Statics} {o : Outcome} {nd : Node} {cells : List UInt32}

theorem pairs_ne_nil (h : 2 ≤ cells.length) : pairs cells ≠ [] := by
  match cells, h with
  | address :: size :: cells, _ => exact List.cons_ne_nil _ _

theorem pairs_take (h : regdataLength ≤ cells.length) :
    registers.map (fun m => ((cells.take sizeofRegdata).getD m.cells.1 0,
      (cells.take sizeofRegdata).getD m.cells.2 0)) = pairs (cells.take regdataLength) := by
  match cells, h with
  | c₀ :: c₁ :: c₂ :: c₃ :: c₄ :: c₅ :: c₆ :: c₇ :: c₈ :: c₉ :: cells, _ => rfl

/-- A table of forty cells or more is mapped as it should be, and is stored past the array. -/
theorem recorded_of_le (h : o.Reaches nd) (hreg : nd.reg = .ok cells)
    (hle : sizeofRegdata ≤ cells.length) :
    (Recorded.dtsofledInit g o).data.own.stored = List.range sizeofRegdata ∧
      (Recorded.dtsofledInit g o).data.own.calls.map (fun c => (c.address, c.size)) =
        pairs (cells.take regdataLength) := by
  obtain ⟨a, ha, hown⟩ := Recorded.exists_readReg (g := g) h
  obtain ⟨hstored, hcalls⟩ := Recorded.readReg_of_le (o := o) hreg hle
    (a := a) (by rw [hown]; exact ⟨rfl, rfl⟩)
  rw [ha, hstored, hcalls, List.map_map]
  exact ⟨rfl, pairs_take (Nat.le_trans (by decide) hle)⟩

theorem recorded_of_lt (h : o.Reaches nd) (hreg : nd.reg = .ok cells)
    (hlt : cells.length < sizeofRegdata) :
    (Recorded.dtsofledInit g o).ret < 0 ∧
      (Recorded.dtsofledInit g o).data.own = (Recorded.watch g).own := by
  obtain ⟨a, ha, hown⟩ := Recorded.exists_readReg (g := g) h
  rw [ha, Recorded.readReg_of_lt hreg hlt]
  exact ⟨eoverflow.2, hown⟩

theorem own_of_short (hshort : ∀ nd cells, o.Reaches nd → nd.reg = .ok cells →
    cells.length < sizeofRegdata) :
    (Recorded.dtsofledInit g o).data.own = (Recorded.watch g).own := by
  by_cases h : ∃ nd, o.Reaches nd
  · obtain ⟨nd, hnd⟩ := h
    cases hreg : nd.reg with
    | error e =>
        obtain ⟨a, ha, hown⟩ := Recorded.exists_readReg (g := g) hnd
        rw [ha, Recorded.readReg_of_error hreg]
        exact hown
    | ok cells => exact (recorded_of_lt hnd hreg (hshort nd cells hnd hreg)).2
  · exact Recorded.own_of_not_reaches fun nd hnd => h ⟨nd, hnd⟩

/-- The table is read as it should be only where there is no table of ten cells or more to
read. -/
theorem register_table_iff (g : Statics) (o : Outcome) :
    ReadsTable g o ↔ ∀ nd cells, o.Reaches nd → nd.reg = .ok cells →
      cells.length < regdataLength := by
  constructor
  · intro h nd cells hnd hreg
    by_contra hlong
    have hten : regdataLength ≤ cells.length := Nat.le_of_not_lt hlong
    rcases Nat.lt_or_ge cells.length sizeofRegdata with hlt | hle
    · have hmaps := h.maps nd cells hnd hreg hten
      rw [(recorded_of_lt hnd hreg hlt).2] at hmaps
      refine pairs_ne_nil ?_ hmaps.symm
      rw [List.length_take, Nat.min_eq_left hten]
      decide
    · have hinside := h.inside (sizeofRegdata - 1)
      rw [(recorded_of_le hnd hreg hle).1] at hinside
      exact absurd (hinside (List.mem_range.2 (by decide))) (by decide)
  · intro hshort
    have hlt : ∀ nd cells, o.Reaches nd → nd.reg = .ok cells → cells.length < sizeofRegdata :=
      fun nd cells hnd hreg => Nat.lt_trans (hshort nd cells hnd hreg) (by decide)
    have hown := own_of_short (g := g) hlt
    constructor
    · rw [hown]
      exact fun i hi => absurd hi List.not_mem_nil
    · intro nd cells hnd hreg hten
      exact absurd (hshort nd cells hnd hreg) (Nat.not_lt.2 hten)
    · intro nd cells hnd hreg _
      rw [hown]
      exact ⟨(recorded_of_lt hnd hreg (hlt nd cells hnd hreg)).1, rfl⟩

end

def withReg (cells : List UInt32) : Outcome :=
  { allSucceed with node := some ⟨.ok [], .ok [], .ok cells⟩ }

theorem reaches_withReg (cells : List UInt32) :
    (withReg cells).Reaches ⟨.ok [], .ok [], .ok cells⟩ :=
  ⟨⟨_, rfl⟩, ⟨⟨_, rfl⟩, ⟨_, rfl⟩, _, rfl⟩, rfl, ⟨_, rfl⟩, _, rfl⟩

/-- A correct table of ten cells is refused, and of a table of forty cells thirty are stored past
the array. -/
theorem register_table_ten_and_forty :
    (Recorded.dtsofledInit driver.fresh (withReg (List.replicate 10 1))).ret = -75 ∧
      (Recorded.dtsofledInit driver.fresh (withReg (List.replicate 10 1))).data.own.calls = [] ∧
      (Recorded.dtsofledInit driver.fresh (withReg (List.replicate 40 1))).data.own.stored =
        List.range 40 ∧
      ¬ ReadsTable driver.fresh (withReg (List.replicate 10 1)) ∧
      ¬ ReadsTable driver.fresh (withReg (List.replicate 40 1)) := by
  have hcalls : (Recorded.dtsofledInit driver.fresh
      (withReg (List.replicate 10 1))).data.own.calls = [] := rfl
  have hstored : (Recorded.dtsofledInit driver.fresh
      (withReg (List.replicate 40 1))).data.own.stored = List.range 40 := rfl
  refine ⟨rfl, hcalls, hstored, ?_, ?_⟩
  · intro h
    have hmaps := h.maps _ _ (reaches_withReg _) rfl (by decide)
    rw [hcalls] at hmaps
    exact absurd hmaps (by decide)
  · intro h
    have hinside := h.inside 39
    rw [hstored] at hinside
    exact absurd (hinside (List.mem_range.2 (by decide))) (by decide)

end Dtsofled
