import LinuxDriver.CString
import Mathlib.Data.List.Infix

/-!
# The command file of sys2

A write to `/sys/kernel/mymodule/my_data` is copied into the static array `my_data` and
dispatched through the table `command_handlers`. The array outlives the write.
-/

open CString

namespace Sys2

inductive Handler where
  | showtasklist
  | printTaskInfo
  | parseCommand
  | setUserNiceByUid
  | setAllTaskNice
  | showkernelsymbol
  | showallthread
  | setThreadPriority
  | showinterface
  | setmtu
  | clearinterface
  | showprocessfd
  | setsocketsize
  deriving DecidableEq, Repr

structure CommandHandler where
  cmd : List UInt8
  handler : Handler
  deriving DecidableEq, Repr

/-- The table without its NULL entry, which ends the list here. -/
def commandHandlers : List CommandHandler :=
  [⟨bytes "showtask", .showtasklist⟩,
   ⟨bytes "showalltask", .printTaskInfo⟩,
   ⟨bytes "parse", .parseCommand⟩,
   ⟨bytes "setniceuser", .setUserNiceByUid⟩,
   ⟨bytes "setnice", .setAllTaskNice⟩,
   ⟨bytes "showkernelsymbol", .showkernelsymbol⟩,
   ⟨bytes "showallthread", .showallthread⟩,
   ⟨bytes "setthreadpriority", .setThreadPriority⟩,
   ⟨bytes "showinterface", .showinterface⟩,
   ⟨bytes "setmtu", .setmtu⟩,
   ⟨bytes "clearinterface", .clearinterface⟩,
   ⟨bytes "showprocessfd", .showprocessfd⟩,
   ⟨bytes "setsocketsize", .setsocketsize⟩]

def myDataSize : ℕ := 256

/-- The static array `my_data`. Its last byte is NUL at load and after every write. -/
structure MyData where
  mem : List UInt8
  size : mem.length = myDataSize
  closed : mem.getLast? = some 0

def MyData.zero : MyData where
  mem := List.replicate myDataSize 0
  size := List.length_replicate
  closed := by rw [List.getLast?_replicate, if_neg (by decide)]

def MyData.snprintf (d : MyData) (buf : List UInt8) : MyData where
  mem := snprintfS d.mem myDataSize buf
  size := (length_snprintfS (by rw [d.size]; decide) buf).trans d.size
  closed := getLast?_snprintfS d.closed myDataSize buf

structure Call where
  handler : Handler
  param : List UInt8
  deriving DecidableEq, Repr

def MyData.param (d : MyData) (e : CommandHandler) : List UInt8 :=
  text (d.mem.drop (e.cmd.length + 1))

/-- The loop over the table: the calls made before it returns. -/
def dispatch (d : MyData) : List CommandHandler → List Call
  | [] => []
  | e :: es =>
      if strncmp d.mem e.cmd e.cmd.length = 0 then [⟨e.handler, d.param e⟩]
      else dispatch d es

/-- What `my_data_store` leaves behind: the array, the calls, whether it logged an unknown
command, and its result. -/
structure Store where
  myData : MyData
  calls : List Call
  unknown : Bool
  ret : ℕ

def myDataStore (d : MyData) (buf : List UInt8) (count : ℕ) : Store :=
  let d := d.snprintf buf
  let calls := dispatch d commandHandlers
  ⟨d, calls, calls.isEmpty, count⟩

def myDataShow (d : MyData) : List UInt8 := text d.mem ++ bytes "\n"

/-- The array after a sequence of writes to the freshly loaded module. -/
def after (history : List (List UInt8)) : MyData :=
  history.foldl (fun d buf => (myDataStore d buf buf.length).myData) MyData.zero

/-- The part of a write that the array keeps. -/
def stored (buf : List UInt8) : List UInt8 := (text buf).take (myDataSize - 1)

@[simp] theorem MyData.text_snprintf (d : MyData) (buf : List UInt8) :
    text (d.snprintf buf).mem = stored buf := text_snprintfS d.mem myDataSize buf

theorem MyData.param_snprintf (d : MyData) (buf : List UInt8) (e : CommandHandler) :
    (d.snprintf buf).param e =
      if e.cmd.length < (stored buf).length then (stored buf).drop (e.cmd.length + 1)
      else text (d.mem.drop (e.cmd.length + 1)) :=
  text_drop_snprintfS d.mem myDataSize buf e.cmd.length

theorem zero_notMem_cmd {e : CommandHandler} (he : e ∈ commandHandlers) :
    (0 : UInt8) ∉ e.cmd :=
  (by decide : ∀ e ∈ commandHandlers, (0 : UInt8) ∉ e.cmd) e he

/-- Every parameter points into the array. -/
theorem cmd_length_lt {e : CommandHandler} (he : e ∈ commandHandlers) :
    e.cmd.length + 1 < myDataSize :=
  (by decide : ∀ e ∈ commandHandlers, e.cmd.length + 1 < myDataSize) e he

theorem dispatch_eq (d : MyData) (es : List CommandHandler)
    (hes : ∀ e ∈ es, (0 : UInt8) ∉ e.cmd) :
    dispatch d es =
      ((es.find? fun e => e.cmd <+: text d.mem).map fun e => ⟨e.handler, d.param e⟩).toList := by
  induction es with
  | nil => rfl
  | cons e es ih =>
      have hiff := strncmp_eq_zero_iff d.mem e.cmd (hes e List.mem_cons_self)
      by_cases hpre : e.cmd <+: text d.mem
      · rw [dispatch, if_pos (hiff.2 hpre), List.find?_cons_of_pos (by simpa using hpre)]
        rfl
      · rw [dispatch, if_neg (mt hiff.1 hpre), List.find?_cons_of_neg (by simpa using hpre)]
        exact ih fun e' he' => hes e' (List.mem_cons_of_mem _ he')

/-- The table entry that a text selects. -/
def entry (t : List UInt8) : Option CommandHandler :=
  commandHandlers.find? fun e => e.cmd <+: t

theorem myDataStore_calls (d : MyData) (buf : List UInt8) (count : ℕ) :
    (myDataStore d buf count).calls = ((entry (stored buf)).map fun e =>
      (⟨e.handler, (d.snprintf buf).param e⟩ : Call)).toList := by
  change dispatch (d.snprintf buf) commandHandlers = _
  rw [dispatch_eq _ _ fun e => zero_notMem_cmd, MyData.text_snprintf, entry]

theorem myDataStore_unknown (d : MyData) (buf : List UInt8) (count : ℕ) :
    (myDataStore d buf count).unknown = (entry (stored buf)).isNone := by
  change (myDataStore d buf count).calls.isEmpty = _
  rw [myDataStore_calls]
  cases entry (stored buf) <;> rfl

theorem entry_prefix {t : List UInt8} {e : CommandHandler} (h : entry t = some e) :
    e ∈ commandHandlers ∧ e.cmd <+: t :=
  ⟨List.mem_of_find?_eq_some h, by simpa using List.find?_some h⟩

theorem commandHandlers_pairwise :
    commandHandlers.Pairwise fun e e' => ¬ e.cmd <+: e'.cmd := by decide

theorem entry_cmd {e : CommandHandler} (he : e ∈ commandHandlers) : entry e.cmd = some e := by
  obtain ⟨as, bs, hsplit⟩ := List.append_of_mem he
  have hpair := commandHandlers_pairwise
  rw [hsplit, List.pairwise_append] at hpair
  rw [entry, List.find?_eq_some_iff_append]
  refine ⟨by simp, as, bs, hsplit, fun a ha => ?_⟩
  simpa using hpair.2.2 a ha e List.mem_cons_self

end Sys2
