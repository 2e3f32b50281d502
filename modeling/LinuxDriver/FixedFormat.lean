import Mathlib.Data.List.Basic
import Mathlib.Data.UInt
import Mathlib.Logic.Equiv.Defs

/-!
# Values in a fixed number of bytes

A format stores a value in a fixed number of bytes and reads it from the front of a memory.
Formats are put together as the members of a C structure are, one behind another, and an array
is the values in turn.
-/

/-- What has been encoded is read back, whatever lies behind it. -/
structure FixedFormat (α : Type*) where
  size : ℕ
  encode : α → List UInt8
  read : List UInt8 → α
  length_encode : ∀ a, (encode a).length = size
  read_append : ∀ a rest, read (encode a ++ rest) = a

namespace FixedFormat

variable {α β : Type*}

/-- The same bytes for values of another type. -/
def map (f : FixedFormat α) (e : α ≃ β) : FixedFormat β where
  size := f.size
  encode b := f.encode (e.symm b)
  read bs := e (f.read bs)
  length_encode b := f.length_encode (e.symm b)
  read_append b rest := by rw [f.read_append, e.apply_symm_apply]

variable (f : FixedFormat α)

end FixedFormat
