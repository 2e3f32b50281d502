import Mathlib.Data.List.Basic

/-!
# Serial histories of an object

A sequential object has an effect for each operation and says which operations are legal in
which state; an operation carries its own result. A history is serial when every operation is
legal in the state that the ones before it leave.
-/

structure SerialObject (σ ο : Type*) where
  effect : ο → σ → σ
  Legal : σ → ο → Prop

namespace SerialObject

variable {σ ο : Type*} (O : SerialObject σ ο)

def replay (s : σ) (ops : List ο) : σ := ops.foldl (fun s o => O.effect o s) s

def Serial : σ → List ο → Prop
  | _, [] => True
  | s, o :: ops => O.Legal s o ∧ Serial (O.effect o s) ops

@[simp] theorem replay_nil (s : σ) : O.replay s [] = s := rfl

@[simp] theorem replay_cons (s : σ) (o : ο) (ops : List ο) :
    O.replay s (o :: ops) = O.replay (O.effect o s) ops := rfl

@[simp] theorem replay_concat (s : σ) (ops : List ο) (o : ο) :
    O.replay s (ops ++ [o]) = O.effect o (O.replay s ops) := by
  rw [replay, List.foldl_append]
  rfl

variable {O}

theorem serial_append {s : σ} {ops ops' : List ο} :
    O.Serial s (ops ++ ops') ↔ O.Serial s ops ∧ O.Serial (O.replay s ops) ops' := by
  induction ops generalizing s with
  | nil => simp [Serial]
  | cons o ops ih =>
      rw [List.cons_append, Serial, Serial, ih, and_assoc, replay_cons]

theorem serial_concat {s : σ} {ops : List ο} {o : ο} :
    O.Serial s (ops ++ [o]) ↔ O.Serial s ops ∧ O.Legal (O.replay s ops) o := by
  rw [serial_append, Serial]
  exact and_congr_right fun _ => and_iff_left trivial

/-- Each operation of a serial history is legal where it stands. -/
theorem Serial.legal {s : σ} {pre post : List ο} {o : ο} (h : O.Serial s (pre ++ o :: post)) :
    O.Legal (O.replay s pre) o := by
  rw [serial_append] at h
  exact h.2.1

end SerialObject
