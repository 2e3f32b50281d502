import LinuxDriver.Sys2Command
import Mathlib.Data.List.Find

/-!
# What a sys2 command means

The parameter pointer skips the command's name and one more byte. When the written text is
just the name, that byte is the terminator and the handler reads what an earlier write left
in the array. The table is scanned by prefix, so a word that only begins with a command's
name runs that command too.
-/

open CString

namespace Sys2

variable {buf : List UInt8}

/-- The write makes the same calls after any two histories, and the parameter is the text
after the command name and one separator. -/
def HistoryFree (buf : List UInt8) (count : ℕ) : Prop :=
  (∀ history history' : List (List UInt8),
    (myDataStore (after history) buf count).calls =
      (myDataStore (after history') buf count).calls) ∧
  ∀ history : List (List UInt8), ∀ c ∈ (myDataStore (after history) buf count).calls,
    ∃ e ∈ commandHandlers, e.handler = c.handler ∧ e.cmd <+: stored buf ∧
      c.param = (stored buf).drop (e.cmd.length + 1)

theorem param_of_ne (d : MyData) {e : CommandHandler} (hpre : e.cmd <+: stored buf)
    (hne : stored buf ≠ e.cmd) :
    (d.snprintf buf).param e = (stored buf).drop (e.cmd.length + 1) := by
  have hlen : e.cmd.length < (stored buf).length := by
    rcases Nat.lt_or_ge e.cmd.length (stored buf).length with h | h
    · exact h
    · exact absurd (hpre.eq_of_length_le h).symm hne
  rw [MyData.param_snprintf, if_pos hlen]

theorem param_of_eq (d : MyData) {e : CommandHandler} (heq : stored buf = e.cmd) :
    (d.snprintf buf).param e = text (d.mem.drop (e.cmd.length + 1)) := by
  rw [MyData.param_snprintf, if_neg (by rw [heq]; exact Nat.lt_irrefl _)]

def priming (e : CommandHandler) : List UInt8 := e.cmd ++ bytes " 5"

theorem param_after_priming {e : CommandHandler} (he : e ∈ commandHandlers)
    (heq : stored buf = e.cmd) : ((after [priming e]).snprintf buf).param e = bytes "5" := by
  have hstored : stored (priming e) = priming e :=
    (by decide : ∀ e ∈ commandHandlers, stored (priming e) = priming e) e he
  have hdrop : (priming e).drop (e.cmd.length + 1) = bytes "5" := by
    rw [priming, List.drop_append, List.drop_eq_nil_of_le (Nat.le_succ _),
      Nat.add_sub_cancel_left]
    rfl
  have hlen : e.cmd.length < (stored (priming e)).length := by
    rw [hstored, priming, List.length_append]
    exact Nat.lt_add_of_pos_right (by decide)
  rw [param_of_eq _ heq]
  change (MyData.zero.snprintf (priming e)).param e = _
  rw [MyData.param_snprintf, if_pos hlen, hstored, hdrop]

/-- A write means the same whatever was written before it exactly when it is not a bare
command name. -/
theorem sys2_history_free_iff (buf : List UInt8) (count : ℕ) :
    HistoryFree buf count ↔ ∀ e ∈ commandHandlers, stored buf ≠ e.cmd := by
  constructor
  · intro hfree e he heq
    obtain ⟨e', he', -, hpre, hparam⟩ := hfree.2 [priming e] ⟨e.handler, bytes "5"⟩ (by
      rw [myDataStore_calls, heq, entry_cmd he, Option.map_some,
        param_after_priming he heq]
      exact List.mem_singleton_self _)
    -- Whatever entry explains the call, its text is used up by the time the string starts.
    have hnil : (stored buf).drop (e'.cmd.length + 1) ≠ bytes "5" := by
      rw [heq]
      exact (by decide : ∀ e ∈ commandHandlers, ∀ e' ∈ commandHandlers,
        e.cmd.drop (e'.cmd.length + 1) ≠ bytes "5") e he e' he'
    exact hnil hparam.symm
  · intro hbare
    have hcalls : ∀ history, (myDataStore (after history) buf count).calls =
        ((entry (stored buf)).map fun e =>
          (⟨e.handler, (stored buf).drop (e.cmd.length + 1)⟩ : Call)).toList := by
      intro history
      rw [myDataStore_calls]
      cases hentry : entry (stored buf) with
      | none => rfl
      | some e =>
          obtain ⟨he, hpre⟩ := entry_prefix hentry
          rw [Option.map_some, Option.map_some, param_of_ne _ hpre (hbare e he)]
    refine ⟨fun history history' => (hcalls history).trans (hcalls history').symm, ?_⟩
    intro history c hc
    rw [hcalls] at hc
    cases hentry : entry (stored buf) with
    | none => simp [hentry] at hc
    | some e =>
        obtain ⟨he, hpre⟩ := entry_prefix hentry
        obtain rfl : c = ⟨e.handler, (stored buf).drop (e.cmd.length + 1)⟩ := by
          simpa [hentry] using hc
        exact ⟨e, he, rfl, hpre, rfl⟩

theorem setnice_stale_parameter :
    (myDataStore (after []) (bytes "setnice") 7).calls = [⟨.setAllTaskNice, []⟩] ∧
    (myDataStore (after [bytes "setnice 5"]) (bytes "setnice") 7).calls =
      [⟨.setAllTaskNice, bytes "5"⟩] ∧
    ¬ HistoryFree (bytes "setnice") 7 := by
  have hfresh : (myDataStore (after []) (bytes "setnice") 7).calls =
      [⟨.setAllTaskNice, []⟩] := by decide
  have hstale : (myDataStore (after [bytes "setnice 5"]) (bytes "setnice") 7).calls =
      [⟨.setAllTaskNice, bytes "5"⟩] := by decide
  refine ⟨hfresh, hstale, fun hfree => ?_⟩
  have heq := hfree.1 [] [bytes "setnice 5"]
  rw [hfresh, hstale] at heq
  exact absurd heq (by decide)

def firstWord (t : List UInt8) : List UInt8 := t.takeWhile fun c => c ≠ 32 && c ≠ 10

/-- The entry named by the first word runs, once; without one the command is unknown. -/
def ExactDispatch (d : MyData) (buf : List UInt8) (count : ℕ) : Prop :=
  let out := myDataStore d buf count
  (∀ e ∈ commandHandlers, e.cmd = firstWord (stored buf) →
    out.calls.map Call.handler = [e.handler] ∧ out.unknown = false) ∧
  ((∀ e ∈ commandHandlers, e.cmd ≠ firstWord (stored buf)) →
    out.calls = [] ∧ out.unknown = true)

theorem cmd_prefix_firstWord {e : CommandHandler} (he : e ∈ commandHandlers)
    (t : List UInt8) : e.cmd <+: firstWord t ↔ e.cmd <+: t := by
  have hword : e.cmd.all (fun c => c ≠ 32 && c ≠ 10) = true :=
    (by decide : ∀ e ∈ commandHandlers, e.cmd.all (fun c => c ≠ 32 && c ≠ 10) = true) e he
  exact prefix_takeWhile_iff (List.all_eq_true.1 hword)

theorem entry_firstWord (t : List UInt8) : entry (firstWord t) = entry t := by
  rw [entry, entry]
  exact List.find?_congr fun e he => decide_eq_decide.2 (cmd_prefix_firstWord he t)

theorem handler_calls (d : MyData) (buf : List UInt8) (count : ℕ) :
    (myDataStore d buf count).calls.map Call.handler =
      ((entry (firstWord (stored buf))).map CommandHandler.handler).toList := by
  rw [myDataStore_calls, entry_firstWord]
  cases entry (stored buf) <;> rfl

/-- Dispatch is exact when the first word is a command name or begins with none, and in no
other case. -/
theorem sys2_dispatch_exact_iff (d : MyData) (buf : List UInt8) (count : ℕ) :
    ExactDispatch d buf count ↔
      (∃ e ∈ commandHandlers, e.cmd = firstWord (stored buf)) ∨
        ∀ e ∈ commandHandlers, ¬ e.cmd <+: firstWord (stored buf) := by
  have hunknown := myDataStore_unknown d buf count
  have hcalls := handler_calls d buf count
  rw [← entry_firstWord] at hunknown
  constructor
  · intro hexact
    by_cases hname : ∃ e ∈ commandHandlers, e.cmd = firstWord (stored buf)
    · exact Or.inl hname
    · right
      have hnone := (hexact.2 fun e he heq => hname ⟨e, he, heq⟩).2
      rw [hunknown, Option.isNone_iff_eq_none] at hnone
      exact fun e he hpre => List.find?_eq_none.1 hnone e he (decide_eq_true hpre)
  · intro hcond
    constructor
    · intro e he heq
      rw [hcalls, hunknown, ← heq, entry_cmd he]
      exact ⟨rfl, rfl⟩
    · intro hno
      rcases hcond with ⟨e, he, heq⟩ | hpre
      · exact absurd heq (hno e he)
      · have hnone : entry (firstWord (stored buf)) = none :=
          List.find?_eq_none.2 fun e he h => hpre e he (of_decide_eq_true h)
        rw [hnone] at hcalls hunknown
        exact ⟨List.map_eq_nil_iff.1 hcalls, hunknown⟩

theorem setnicer_runs_setnice :
    firstWord (stored (bytes "setnicer 10")) = bytes "setnicer" ∧
    (∀ e ∈ commandHandlers, e.cmd ≠ bytes "setnicer") ∧
    (myDataStore MyData.zero (bytes "setnicer 10") 11).calls =
      [⟨.setAllTaskNice, bytes " 10"⟩] ∧
    ¬ ExactDispatch MyData.zero (bytes "setnicer 10") 11 := by
  have hword : firstWord (stored (bytes "setnicer 10")) = bytes "setnicer" := by decide
  have hno : ∀ e ∈ commandHandlers, e.cmd ≠ bytes "setnicer" := by decide
  have hcalls : (myDataStore MyData.zero (bytes "setnicer 10") 11).calls =
      [⟨.setAllTaskNice, bytes " 10"⟩] := by decide
  refine ⟨hword, hno, hcalls, fun hexact => ?_⟩
  have hnil := (hexact.2 (by rw [hword]; exact hno)).1
  rw [hcalls] at hnil
  exact List.cons_ne_nil _ _ hnil

end Sys2
