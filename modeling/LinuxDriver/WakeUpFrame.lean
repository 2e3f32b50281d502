import LinuxDriver.WakeUp

/-!
# The entry of the wait queue examples after their init

The entry on `head` lies in the frame of init. Nothing takes it off the queue again, neither the
wake-up nor init after its sleep.
-/

open Interleaving

namespace WakeUp

def State.FrameAlive (s : State) : Task → Prop
  | .init => s.init ≠ .returned
  | .thread => s.thread ≠ .done

/-- `my_function` walks over entries whose frames are there, and an init that has returned has
left no entry. -/
structure HeadAlive (v : Example) (as : List Action) : Prop where
  walked : ∀ pre post u, as = pre ++ .thread :: post → exec (step v) .start pre = some u →
    u.thread = .wakeUp → ∀ e ∈ u.head, u.FrameAlive e
  left : ∀ pre post u, as = pre ++ post → exec (step v) .start pre = some u →
    u.init = .returned → .init ∉ u.head

section

variable {v : Example} {s t : State} {as : List Action}

theorem rank_eq_nine_iff {pc : InitPc} : pc.rank = 9 ↔ pc = .returned := by
  cases pc <;> simp [InitPc.rank]

theorem mem_head_of_returned (h : exec (step v) .start as = some t) (ht : t.init = .returned) :
    .init ∈ t.head := by
  rw [(orderly_exec h).head, ht]
  exact List.mem_cons_self

theorem returned_exec (h : exec (step v) s as = some t) (hs : s.init = .returned) :
    t.init = .returned := by
  have hle := rank_le_exec h
  rw [rank_eq_nine_iff.2 hs] at hle
  have hmax : t.init.rank ≤ 9 := by cases t.init <;> decide
  exact rank_eq_nine_iff.1 (Nat.le_antisymm hmax hle)

theorem eq_init_of_mem_head (h : exec (step v) .start as = some t) {e : Task} (he : e ∈ t.head) :
    e = .init := by
  rw [(orderly_exec h).head] at he
  split_ifs at he
  · exact List.mem_singleton.1 he
  · exact absurd he List.not_mem_nil

end

/-- The queue keeps to live frames exactly as long as init has not returned, be it woken or timed
out. -/
theorem wake_up_head_alive_iff {v : Example} {as : List Action} {t : State}
    (h : exec (step v) .start as = some t) : HeadAlive v as ↔ t.init ≠ .returned := by
  constructor
  · intro halive hreturned
    have hqueued := mem_head_of_returned h hreturned
    exact halive.left as [] t (List.append_nil as).symm h hreturned hqueued
  · intro hrunning
    have halive : ∀ pre post u, as = pre ++ post → exec (step v) .start pre = some u →
        u.init ≠ .returned := by
      rintro pre post u rfl hu hreturned
      rw [exec_append_of_eq hu] at h
      exact hrunning (returned_exec h hreturned)
    constructor
    · intro pre post u hsplit hu _ e he
      rw [eq_init_of_mem_head hu he]
      exact halive pre (.thread :: post) u hsplit hu
    · intro pre post u hsplit hu hreturned
      exact absurd hreturned (halive pre post u hsplit hu)

theorem wake_up_head_alive_asleep : HeadAlive .wakeUp tillAsleep := by
  obtain ⟨t, ht, hpc⟩ := exists_of_exec_any State.start tillAsleep (fun s => s.init = .asleep)
    (by decide +kernel :
      (exec (step .wakeUp) State.start tillAsleep).any (fun s => s.init = .asleep) = true)
  have hasleep : t.init = .asleep := of_decide_eq_true hpc
  exact (wake_up_head_alive_iff ht).2 (by rw [hasleep]; decide)

/-- The timeout comes first, and the thread is about to wake the queue. -/
def late : List Action := tillAsleep ++ [.timeout, .init, .thread]

theorem wake_up_walks_dead_frame :
    (∃ t, exec (step .wakeUp) .start late = some t ∧
      t.thread = .wakeUp ∧ t.head = [.init] ∧ t.init = .returned) ∧
    ¬ HeadAlive .wakeUp (late ++ [.thread]) := by
  have hreached : ∃ t, exec (step .wakeUp) .start late = some t ∧
      t.thread = .wakeUp ∧ t.head = [.init] ∧ t.init = .returned := by
    obtain ⟨t, ht, hdead⟩ := exists_of_exec_any State.start late
      (fun s => s.thread = .wakeUp ∧ s.head = [.init] ∧ s.init = .returned)
      (by decide +kernel : (exec (step .wakeUp) State.start late).any
        (fun s => s.thread = .wakeUp ∧ s.head = [.init] ∧ s.init = .returned) = true)
    exact ⟨t, ht, of_decide_eq_true hdead⟩
  refine ⟨hreached, ?_⟩
  intro halive
  obtain ⟨t, ht, hwake, hhead, hreturned⟩ := hreached
  have hqueued : .init ∈ t.head := by
    rw [hhead]
    exact List.mem_cons_self
  exact halive.walked late [] t rfl ht hwake .init hqueued hreturned

end WakeUp
