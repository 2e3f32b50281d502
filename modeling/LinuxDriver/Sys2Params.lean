import LinuxDriver.StringReads
import LinuxDriver.Sys2Command

/-!
# Where the parameters of the handlers point

`my_data_store` passes a handler the address one byte behind the command in `my_data`, whatever
that byte is. The string there may be left from earlier writes; the NUL in the last byte of the
array ends it.
-/

open CString

namespace Sys2

/-- A handler and its parameter as an index of `my_data`. -/
structure PointerCall where
  handler : Handler
  param : ℕ
  deriving DecidableEq

/-- The loop over the table with the pointer that it computes. -/
def dispatchAt (mem : List UInt8) : List CommandHandler → Option PointerCall
  | [] => none
  | e :: es =>
      if strncmp mem e.cmd e.cmd.length = 0 then some ⟨e.handler, e.cmd.length + 1⟩
      else dispatchAt mem es

def bytesAfter (history : List (List UInt8)) : List UInt8 :=
  history.foldl (fun mem buf => snprintfS mem myDataSize buf) (List.replicate myDataSize 0)

def lastCall (history : List (List UInt8)) : Option PointerCall :=
  dispatchAt (bytesAfter history) commandHandlers

/-- The array is as long as ever and ends with a NUL, and so do the strings that a handler or
`my_data_show` read in it. -/
structure ParametersInside (history : List (List UInt8)) : Prop where
  size : (bytesAfter history).length = myDataSize
  closed : (bytesAfter history)[myDataSize - 1]? = some 0
  pointer : ∀ c ∈ lastCall history, c.param < myDataSize
  terminated : ∀ c ∈ lastCall history, Terminated (bytesAfter history) c.param
  reads : ∀ c ∈ lastCall history, ∀ i ∈ stringReads (bytesAfter history) c.param, i < myDataSize
  calls : ∀ pre buf count, history = pre ++ [buf] → (myDataStore (after pre) buf count).calls =
    (lastCall history).toList.map fun c =>
      ⟨c.handler, text ((bytesAfter history).drop c.param)⟩
  shown : (myDataShow (after history)).length ≤ myDataSize
  showReads : ∀ i ∈ stringReads (bytesAfter history) 0, i < myDataSize

/-! ## The array and its type -/

theorem after_concat (history : List (List UInt8)) (buf : List UInt8) :
    after (history ++ [buf]) = (after history).snprintf buf := by
  rw [after, List.foldl_append]
  rfl

theorem bytesAfter_eq (history : List (List UInt8)) : bytesAfter history = (after history).mem := by
  induction history using List.reverseRecOn with
  | nil => rfl
  | append_singleton history buf ih =>
      rw [after_concat, bytesAfter, List.foldl_append]
      change snprintfS (bytesAfter history) myDataSize buf = snprintfS _ myDataSize buf
      rw [ih]

theorem dispatch_eq_dispatchAt (d : MyData) (es : List CommandHandler) :
    dispatch d es =
      (dispatchAt d.mem es).toList.map fun c => ⟨c.handler, text (d.mem.drop c.param)⟩ := by
  induction es with
  | nil => rfl
  | cons e es ih =>
      rw [dispatch, dispatchAt]
      split_ifs with h
      · rfl
      · exact ih

theorem param_of_mem_dispatchAt {mem : List UInt8} {es : List CommandHandler} {c : PointerCall}
    (h : c ∈ dispatchAt mem es) : ∃ e ∈ es, c.param = e.cmd.length + 1 := by
  induction es with
  | nil => exact absurd h (Option.not_mem_none c)
  | cons e es ih =>
      rw [dispatchAt] at h
      split_ifs at h with hcmd
      · obtain rfl := Option.mem_some_iff.1 h
        exact ⟨e, List.mem_cons_self, rfl⟩
      · obtain ⟨e', he', hparam⟩ := ih h
        exact ⟨e', List.mem_cons_of_mem e he', hparam⟩

theorem param_lt {history : List (List UInt8)} {c : PointerCall} (h : c ∈ lastCall history) :
    c.param < myDataSize := by
  obtain ⟨e, he, hparam⟩ := param_of_mem_dispatchAt h
  rw [hparam]
  exact cmd_length_lt he

theorem my_data_parameters_inside (history : List (List UInt8)) : ParametersInside history := by
  have hsize : (bytesAfter history).length = myDataSize := by
    rw [bytesAfter_eq]
    exact (after history).size
  have hlast : (bytesAfter history).getLast? = some 0 := by
    rw [bytesAfter_eq]
    exact (after history).closed
  have hterm : ∀ p < myDataSize, Terminated (bytesAfter history) p := by
    intro p hp
    rw [← hsize] at hp
    exact terminated_of_getLast? hlast hp
  have hreads : ∀ p < myDataSize, ∀ i ∈ stringReads (bytesAfter history) p, i < myDataSize := by
    intro p hp
    rw [← hsize]
    exact stringReads_inside_iff.2 (hterm p hp)
  constructor
  · exact hsize
  · rw [← hsize, ← List.getLast?_eq_getElem?]
    exact hlast
  · exact fun c hc => param_lt hc
  · exact fun c hc => hterm c.param (param_lt hc)
  · exact fun c hc => hreads c.param (param_lt hc)
  · rintro pre buf count rfl
    rw [lastCall, bytesAfter_eq, after_concat]
    exact dispatch_eq_dispatchAt _ commandHandlers
  · have hlt := hreads 0 (by decide) (text (bytesAfter history)).length
      (List.mem_range'_1.2 ⟨Nat.zero_le _, by simp⟩)
    rw [myDataShow, ← bytesAfter_eq, List.length_append]
    exact hlt
  · exact hreads 0 (by decide)

end Sys2
