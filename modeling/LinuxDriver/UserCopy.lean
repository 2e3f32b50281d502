import Mathlib.Algebra.Group.Basic
import Mathlib.Data.List.GetD
import Mathlib.Data.List.Range
import Mathlib.Logic.Function.Basic

/-!
# Copies between a memory and a user

A memory gives the byte at each offset from the start of an object. A copy of `n` bytes moves a
prefix of them and returns how many it has not moved. After a fault, a copy into a memory may
clear what is left of its destination.
-/

namespace UserCopy

variable {β : Type*}

/-- The memory with `bytes` at its start. -/
def store (bytes : List β) (mem : ℕ → β) : ℕ → β := fun k => bytes.getD k (mem k)

/-- The first `n` bytes of a memory. -/
def load (mem : ℕ → β) (n : ℕ) : List β := (List.range n).map mem

/-- The bytes that a copy of `n` bytes moves before it ends or faults. -/
structure Transfer (β : Type*) (n : ℕ) where
  moved : List β
  le : moved.length ≤ n

def Transfer.left {n : ℕ} (t : Transfer β n) : ℕ := n - t.moved.length

/-- What a copy into a memory stores. -/
def Transfer.stored [Zero β] {n : ℕ} (pads : Bool) (t : Transfer β n) : List β :=
  t.moved ++ if pads then List.replicate t.left 0 else []

theorem left_eq_zero_iff {n : ℕ} {t : Transfer β n} : t.left = 0 ↔ t.moved.length = n := by
  have hle := t.le
  unfold Transfer.left
  omega

theorem length_stored [Zero β] {n : ℕ} (pads : Bool) (t : Transfer β n) :
    (t.stored pads).length = if pads then n else t.moved.length := by
  have hle := t.le
  cases pads with
  | false => simp [Transfer.stored]
  | true =>
      simp only [Transfer.stored, if_true, List.length_append, List.length_replicate,
        Transfer.left]
      omega

theorem length_stored_le [Zero β] {n : ℕ} (pads : Bool) (t : Transfer β n) :
    (t.stored pads).length ≤ n := by
  have hle := t.le
  rw [length_stored]
  split_ifs
  · exact Nat.le_refl n
  · exact hle

@[simp] theorem length_load (mem : ℕ → β) (n : ℕ) : (load mem n).length = n := by
  simp [load]

theorem load_congr {f g : ℕ → β} {n : ℕ} : load f n = load g n ↔ ∀ k < n, f k = g k := by
  simp [load]

theorem store_of_lt {bytes : List β} {k : ℕ} (h : k < bytes.length) (mem : ℕ → β) :
    store bytes mem k = bytes[k] := List.getD_eq_getElem _ _ h

theorem store_of_le {bytes : List β} {k : ℕ} (h : bytes.length ≤ k) (mem : ℕ → β) :
    store bytes mem k = mem k := List.getD_eq_default _ _ h

theorem load_eq_iff {mem : ℕ → β} {bytes : List β} :
    load mem bytes.length = bytes ↔ ∀ k (h : k < bytes.length), mem k = bytes[k] := by
  constructor
  · intro heq k hk
    have hget := congrArg (fun l => l[k]?) heq
    simpa [load, hk] using hget
  · intro hall
    apply List.ext_getElem (length_load _ _)
    intro k hk hk'
    simp only [load, List.getElem_map, List.getElem_range]
    exact hall k hk'

theorem store_concat (bytes : List β) (b : β) (mem : ℕ → β) :
    store (bytes ++ [b]) mem = Function.update (store bytes mem) bytes.length b := by
  funext k
  rcases Nat.lt_trichotomy k bytes.length with hk | rfl | hk
  · rw [Function.update_of_ne hk.ne]
    simp [store, List.getElem?_append_left hk]
  · simp [store]
  · rw [Function.update_of_ne hk.ne']
    have hle : (bytes ++ [b]).length ≤ k := by
      rw [List.length_append]
      exact hk
    simp [store, List.getElem?_eq_none hle, List.getElem?_eq_none hk.le]

/-- Clearing one byte more behind the bytes that were moved. -/
theorem store_fill_succ {moved : List β} {filled : ℕ} (h : moved.length ≤ filled) (b : β)
    (mem : ℕ → β) : store (moved ++ List.replicate (filled + 1 - moved.length) b) mem =
      Function.update (store (moved ++ List.replicate (filled - moved.length) b) mem) filled b := by
  have hbytes : moved ++ List.replicate (filled + 1 - moved.length) b =
      moved ++ List.replicate (filled - moved.length) b ++ [b] := by
    rw [Nat.sub_add_comm h, List.replicate_succ', List.append_assoc]
  have hlength : (moved ++ List.replicate (filled - moved.length) b).length = filled := by
    rw [List.length_append, List.length_replicate]
    omega
  have hstore := store_concat (moved ++ List.replicate (filled - moved.length) b) b mem
  rwa [hlength, ← hbytes] at hstore

theorem load_store (bytes : List β) (mem : ℕ → β) :
    load (store bytes mem) bytes.length = bytes :=
  load_eq_iff.2 fun _ hk => store_of_lt hk mem

theorem prefix_load_store {bytes : List β} {n : ℕ} (h : bytes.length ≤ n) (mem : ℕ → β) :
    bytes <+: load (store bytes mem) n := by
  obtain ⟨m, rfl⟩ := Nat.exists_eq_add_of_le h
  rw [load, List.range_add, List.map_append]
  refine ⟨_, congrArg₂ (· ++ ·) ?_ rfl⟩
  exact (load_store bytes mem).symm

/-- A store changes nothing within a bound exactly when the bytes were there already. -/
theorem store_eq_self_iff {bytes : List β} {mem : ℕ → β} {n : ℕ} (h : bytes.length ≤ n) :
    (∀ k < n, store bytes mem k = mem k) ↔ load mem bytes.length = bytes := by
  rw [load_eq_iff]
  constructor
  · intro hsame k hk
    rw [← hsame k (Nat.lt_of_lt_of_le hk h), store_of_lt hk]
  · intro hthere k _
    rcases Nat.lt_or_ge k bytes.length with hk | hk
    · rw [store_of_lt hk, hthere k hk]
    · rw [store_of_le hk]

end UserCopy
