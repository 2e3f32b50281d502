import LinuxDriver.DriverLife

/-!
# Kernel calls in init and exit routines

Kernel calls return 0 or a negative value, or a pointer that is valid, NULL or encodes an
error. A call that registers something says so in the events of the routine that made it.
-/

open ResourceLedger

namespace KernelCalls

abbrev Errno := {code : ℤ // code < 0}

abbrev Status := Except Errno Unit

/-- What a number that is taken is refused with. -/
def ebusy : Errno := ⟨-16, by decide⟩

inductive Ptr
  | null
  | addr (a : ℕ)
  | err (e : Errno)
  deriving DecidableEq

namespace Ptr

def isErr : Ptr → Bool
  | .err _ => true
  | _ => false

def isErrOrNull : Ptr → Bool
  | .addr _ => false
  | _ => true

def ptrErr : Ptr → ℤ
  | .err e => e
  | _ => 0

/-- What `class_create` and `device_create` return. -/
def ofResult : Except Errno ℕ → Ptr
  | .ok a => .addr a
  | .error e => .err e

/-- What `ioremap` and `kobject_create_and_add` return. -/
def ofNullable : Option ℕ → Ptr
  | some a => .addr a
  | none => .null

end Ptr

variable {γ ρ : Type*}

def enter (g : γ) : Attempt γ ρ := ⟨g, [], 0⟩

/-- `ret = f(...)` for a call that registers `r` when it succeeds. -/
def call (a : Attempt γ ρ) (r : ρ) : Status → Attempt γ ρ
  | .ok _ => { a.emit (.acquire r) with ret := 0 }
  | .error e => { a with ret := e }

/-- A pointer variable assigned by a call that registers what the pointer names. -/
def create (a : Attempt γ ρ) (assign : γ → Ptr → γ) (r : Ptr → ρ) : Ptr → Attempt γ ρ
  | .addr p => { a.emit (.acquire (r (.addr p))) with data := assign a.data (.addr p) }
  | p => { a with data := assign a.data p }

end KernelCalls
