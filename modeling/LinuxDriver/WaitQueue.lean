import Mathlib.Logic.Function.Basic
import Mathlib.Tactic.SplitIfs

/-!
# Waiting for a condition on a wait queue

The interruptible wait loop of a kernel as a machine of its own. A waiter puts itself on the
queue in the sleeping state, tests the condition, and sleeps only while nobody has made it
runnable since; a signal lets it leave. A wake-up makes every queued waiter runnable. A waiter
that has tested and is still in the sleeping state has been told of no change: it is `Armed`
when the condition is false. `Armed` survives every step that either keeps the condition false
or wakes the queue, which is what excludes lost wake-ups.
-/

namespace WaitQueue

inductive Phase
  | enqueue
  | test
  | tested
  | asleep
  | left (interrupted : Bool)
  deriving DecidableEq

structure Waiter where
  phase : Phase
  queued : Bool
  sleeping : Bool
  signal : Bool
  deriving DecidableEq

namespace Waiter

def enter (w : Waiter) : Waiter :=
  { w with phase := .enqueue, queued := false, sleeping := false }

def leave (w : Waiter) (interrupted : Bool) : Waiter :=
  { w with phase := .left interrupted, queued := false, sleeping := false }

def advance (cond : Bool) (w : Waiter) : Option Waiter :=
  match w.phase with
  | .enqueue => some { w with phase := .test, queued := true, sleeping := true }
  | .test => if cond then some (w.leave false) else some { w with phase := .tested }
  | .tested =>
      if w.signal then some (w.leave true)
      else if w.sleeping then some { w with phase := .asleep }
      else some { w with phase := .enqueue }
  | .asleep => if w.sleeping then none else some { w with phase := .enqueue }
  | .left _ => none

def wake (w : Waiter) : Waiter := if w.queued then { w with sleeping := false } else w

def interrupt (w : Waiter) : Waiter := { w with signal := true, sleeping := false }

/-- Asleep with no wake-up and no signal on its way. -/
def Stranded (w : Waiter) : Prop := w.phase = .asleep ∧ w.sleeping = true ∧ w.signal = false

/-- In the sleeping state a waiter is on the queue, and after its test the condition is
still false. -/
structure Armed (cond : Bool) (w : Waiter) : Prop where
  queued : w.sleeping = true → w.queued = true
  quiet : w.sleeping = true → w.phase ≠ .test → cond = false

variable {cond : Bool} {w w' : Waiter}

theorem Armed.not_stranded (h : Armed true w) : ¬ w.Stranded := by
  rintro ⟨hp, hs, _⟩
  have := h.quiet hs (by rw [hp]; decide)
  contradiction

theorem armed_of_running (h : w.sleeping = false) : Armed cond w := by
  constructor <;> intro hs <;> rw [h] at hs <;> contradiction

theorem Armed.advance (h : Armed cond w) (hw : w.advance cond = some w') : Armed cond w' := by
  cases hp : w.phase with
  | enqueue =>
      simp only [Waiter.advance, hp, Option.some.injEq] at hw
      subst w'
      exact ⟨fun _ => rfl, fun _ hne => absurd rfl hne⟩
  | test =>
      simp only [Waiter.advance, hp] at hw
      split_ifs at hw with hc
      · cases hw
        exact armed_of_running rfl
      · cases hw
        exact ⟨h.queued, fun _ _ => by simpa using hc⟩
  | tested =>
      simp only [Waiter.advance, hp] at hw
      split_ifs at hw with hsig hs
      · cases hw
        exact armed_of_running rfl
      · cases hw
        exact ⟨h.queued, fun hs _ => h.quiet hs (by rw [hp]; decide)⟩
      · cases hw
        exact armed_of_running (by simpa using hs)
  | asleep =>
      simp only [Waiter.advance, hp] at hw
      split_ifs at hw with hs
      cases hw
      exact armed_of_running (by simpa using hs)
  | left b => simp [Waiter.advance, hp] at hw

theorem Armed.wake {cond' : Bool} (h : Armed cond w) : Armed cond' w.wake := by
  apply armed_of_running
  unfold Waiter.wake
  split_ifs with hq
  · rfl
  · cases hs : w.sleeping with
    | false => rfl
    | true => exact absurd (h.queued hs) hq

theorem Armed.of_false (h : Armed cond w) : Armed false w := ⟨h.queued, fun _ _ => rfl⟩

end Waiter

end WaitQueue
