import LinuxDriver.IterateProcess
import LinuxDriver.Sys2Command

/-!
# The process listings of sys and sys2

`sys/sys.c` compares what was written with two command names in turn; `sys2` has the same two
names at the top of its table. The listings are printed by the same two loops, but `showtasklist`
of `sys` does not count.
-/

open CString CircularList

namespace ProcessListing

structure Tasks extends TaskList.Tasks where
  tgid : ℕ → ℤ
  prio : ℕ → ℤ
  staticPrio : ℕ → ℤ
  normalPrio : ℕ → ℤ

/-- A line of a listing, by its format. -/
inductive TaskLine
  | process (comm : List UInt8) (pid : ℤ)
  | info (comm : List UInt8) (pid tgid prio staticPrio normalPrio : ℤ)
  | taskCount (iTaskCount : Int32)
  deriving DecidableEq

def TaskLine.isProcess : TaskLine → Bool
  | .taskCount _ => false
  | _ => true

/-- The `int` that a listing counts with and the lines so far. -/
structure Tally where
  iTaskCount : Int32
  printed : List TaskLine

def Tally.print (s : Tally) (line : TaskLine) : Tally := { s with printed := s.printed ++ [line] }

def Tally.count (s : Tally) : Tally := { s with iTaskCount := s.iTaskCount + 1 }

/-- `for_each_process` with a line for each process, and the line after the loop; `none` when the
fuel runs out. -/
def listProcesses (k : Tasks) (body : Tally → ℕ → Tally) (fuel : ℕ) : Option (List TaskLine) :=
  let walked : Option Tally :=
    forEach (m := Id) k.next k.initTask (fun s task => pure (body s task)) fuel ⟨0, []⟩
  walked.map fun s => s.printed ++ [.taskCount s.iTaskCount]

def Tasks.processLine (k : Tasks) (task : ℕ) : TaskLine := .process (k.comm task) (k.pid task)

def Tasks.infoLine (k : Tasks) (task : ℕ) : TaskLine :=
  .info (k.comm task) (k.pid task) (k.tgid task) (k.prio task) (k.staticPrio task)
    (k.normalPrio task)

def CountsProcesses (lines : List TaskLine) : Prop :=
  ∃ n, lines.getLast? = some (.taskCount n) ∧ n.toInt = lines.countP TaskLine.isProcess

end ProcessListing

open ProcessListing

namespace Sys

def showtasklist (k : Tasks) (fuel : ℕ) : Option (List TaskLine) :=
  listProcesses k (fun s task => s.print (k.processLine task)) fuel

def printTaskInfo (k : Tasks) (fuel : ℕ) : Option (List TaskLine) :=
  listProcesses k (fun s task => (s.print (k.infoLine task)).count) fuel

/-- What a write leaves: the array, the listing if there was one, and the result. -/
structure Store where
  myData : Sys2.MyData
  listing : Option (List TaskLine)
  ret : ℕ

/-- The array is declared as in sys2. -/
def myDataStore (k : Tasks) (fuel : ℕ) (d : Sys2.MyData) (buf : List UInt8) (count : ℕ) :
    Option Store :=
  let d := d.snprintf buf
  if strncmp d.mem (bytes "showtask") 8 = 0 then
    (showtasklist k fuel).map fun lines => ⟨d, some lines, count⟩
  else if strncmp d.mem (bytes "showalltask") 11 = 0 then
    (printTaskInfo k fuel).map fun lines => ⟨d, some lines, count⟩
  else some ⟨d, none, count⟩

end Sys

namespace Sys2

def showtasklist (k : Tasks) (fuel : ℕ) : Option (List TaskLine) :=
  listProcesses k (fun s task => (s.print (k.processLine task)).count) fuel

def printTaskInfo (k : Tasks) (fuel : ℕ) : Option (List TaskLine) :=
  listProcesses k (fun s task => (s.print (k.infoLine task)).count) fuel

/-- The process listing that a handler prints, if it prints one. -/
def handlerListing (k : Tasks) (fuel : ℕ) : Handler → Option (Option (List TaskLine))
  | .showtasklist => (showtasklist k fuel).map some
  | .printTaskInfo => (printTaskInfo k fuel).map some
  | _ => some none

/-- The process listing that a write prints, if it prints one. -/
def storeListing (k : Tasks) (fuel : ℕ) (d : MyData) (buf : List UInt8) (count : ℕ) :
    Option (Option (List TaskLine)) :=
  match (myDataStore d buf count).calls with
  | [] => some none
  | c :: _ => handlerListing k fuel c.handler

end Sys2

namespace ProcessListing

/-- Both writes come to an end, and what the first lists the second lists as well, with the right
number. -/
def Reproduces (k : Tasks) (d d' : Sys2.MyData) (buf : List UInt8) (count : ℕ) : Prop :=
  ∃ first second, (∀ fuel, k.processes.length < fuel →
      (Sys.myDataStore k fuel d buf count).map Sys.Store.listing = some first ∧
      Sys2.storeListing k fuel d' buf count = some second) ∧
    ∀ lines, first = some lines → second = some lines ∧ CountsProcesses lines

/-! ## The loops -/

section

variable {k : Tasks} {line : ℕ → TaskLine}

theorem foldl_print (l : List ℕ) (s : Tally) :
    l.foldl (fun s task => s.print (line task)) s = ⟨s.iTaskCount, s.printed ++ l.map line⟩ := by
  induction l generalizing s with
  | nil =>
      rw [List.map_nil, List.append_nil]
      rfl
  | cons task l ih =>
      rw [List.foldl_cons, ih, Tally.print, List.append_assoc]
      rfl

theorem foldl_print_count (l : List ℕ) (s : Tally) :
    l.foldl (fun s task => (s.print (line task)).count) s =
      ⟨s.iTaskCount + Int32.ofNat l.length, s.printed ++ l.map line⟩ := by
  induction l generalizing s with
  | nil =>
      have hzero : Int32.ofNat 0 = 0 := rfl
      rw [List.map_nil, List.append_nil, List.length_nil, hzero, Int32.add_zero]
      rfl
  | cons task l ih =>
      rw [List.foldl_cons, ih, Tally.print, Tally.count, List.append_assoc, List.length_cons,
        Nat.add_comm l.length 1, Int32.ofNat_add, Int32.add_assoc]
      rfl

theorem listProcesses_eq {body : Tally → ℕ → Tally} {fuel : ℕ}
    (hfuel : k.processes.length < fuel) : listProcesses k body fuel =
      some ((k.processes.foldl body ⟨0, []⟩).printed ++
        [.taskCount (k.processes.foldl body ⟨0, []⟩).iTaskCount]) := by
  have hwalk := k.ring.forEach_pure body hfuel ⟨0, []⟩
  rw [listProcesses, hwalk]
  rfl

variable (k line) in
/-- The lines about the processes and a number. -/
def listing (n : Int32) : List TaskLine := k.processes.map line ++ [.taskCount n]

theorem listProcesses_print {fuel : ℕ} (hfuel : k.processes.length < fuel) :
    listProcesses k (fun s task => s.print (line task)) fuel = some (listing k line 0) := by
  rw [listProcesses_eq hfuel, foldl_print]
  rfl

theorem listProcesses_print_count {fuel : ℕ} (hfuel : k.processes.length < fuel) :
    listProcesses k (fun s task => (s.print (line task)).count) fuel =
      some (listing k line (Int32.ofNat k.processes.length)) := by
  rw [listProcesses_eq hfuel, foldl_print_count]
  change some (_ ++ [TaskLine.taskCount (0 + _)]) = _
  rw [Int32.zero_add]
  rfl

variable (k line) in
theorem countsProcesses_listing_iff (hline : ∀ task, (line task).isProcess = true) (n : Int32) :
    CountsProcesses (listing k line n) ↔ n.toInt = k.processes.length := by
  have hcount : (listing k line n).countP TaskLine.isProcess = k.processes.length := by
    rw [listing, List.countP_append, List.countP_map]
    have hall : k.processes.countP (TaskLine.isProcess ∘ line) = k.processes.length := by
      rw [List.countP_eq_length]
      exact fun task _ => hline task
    rw [hall]
    rfl
  have hlast : (listing k line n).getLast? = some (.taskCount n) := by
    rw [listing, List.getLast?_append]
    rfl
  constructor
  · rintro ⟨m, hm, hlen⟩
    rw [hlast] at hm
    cases hm
    rw [hlen, hcount]
  · intro h
    exact ⟨n, hlast, by rw [h, hcount]⟩

/-- A counter that does count is right as long as it does not overflow. -/
theorem toInt_ofNat_eq_iff (n : ℕ) : (Int32.ofNat n).toInt = n ↔ n < 0x80000000 := by
  constructor
  · intro h
    have hlt := (Int32.ofNat n).toInt_lt
    omega
  · exact Int32.toInt_ofNat_of_lt

end

/-! ## The two dispatchers -/

section

variable {k : Tasks} {d : Sys2.MyData} {buf : List UInt8} {count fuel : ℕ}

/-- Each of the two comparisons of sys. -/
theorem strncmp_snprintf_iff {cmd : List UInt8} (hcmd : (0 : UInt8) ∉ cmd) :
    strncmp (d.snprintf buf).mem cmd cmd.length = 0 ↔ cmd <+: Sys2.stored buf := by
  rw [← Sys2.MyData.text_snprintf d buf]
  exact strncmp_eq_zero_iff _ cmd hcmd

theorem showtask_iff : strncmp (d.snprintf buf).mem (bytes "showtask") 8 = 0 ↔
    bytes "showtask" <+: Sys2.stored buf := strncmp_snprintf_iff (by decide)

theorem showalltask_iff : strncmp (d.snprintf buf).mem (bytes "showalltask") 11 = 0 ↔
    bytes "showalltask" <+: Sys2.stored buf := strncmp_snprintf_iff (by decide)

theorem sys_of_showtask (h : bytes "showtask" <+: Sys2.stored buf)
    (hfuel : k.processes.length < fuel) :
    (Sys.myDataStore k fuel d buf count).map Sys.Store.listing =
      some (some (listing k k.processLine 0)) := by
  rw [Sys.myDataStore, if_pos (showtask_iff.2 h), Sys.showtasklist,
    listProcesses_print hfuel]
  rfl

theorem sys_of_showalltask (h : ¬ bytes "showtask" <+: Sys2.stored buf)
    (hall : bytes "showalltask" <+: Sys2.stored buf) (hfuel : k.processes.length < fuel) :
    (Sys.myDataStore k fuel d buf count).map Sys.Store.listing =
      some (some (listing k k.infoLine (Int32.ofNat k.processes.length))) := by
  rw [Sys.myDataStore, if_neg (mt showtask_iff.1 h),
    if_pos (showalltask_iff.2 hall), Sys.printTaskInfo, listProcesses_print_count hfuel]
  rfl

theorem sys_of_other (h : ¬ bytes "showtask" <+: Sys2.stored buf)
    (hall : ¬ bytes "showalltask" <+: Sys2.stored buf) :
    (Sys.myDataStore k fuel d buf count).map Sys.Store.listing = some none := by
  rw [Sys.myDataStore, if_neg (mt showtask_iff.1 h),
    if_neg (mt showalltask_iff.1 hall)]
  rfl

theorem sys2_of_entry {e : Sys2.CommandHandler} (h : Sys2.entry (Sys2.stored buf) = some e) :
    Sys2.storeListing k fuel d buf count = Sys2.handlerListing k fuel e.handler := by
  rw [Sys2.storeListing, Sys2.myDataStore_calls, h]
  rfl

theorem sys2_of_showtask (h : bytes "showtask" <+: Sys2.stored buf)
    (hfuel : k.processes.length < fuel) :
    Sys2.storeListing k fuel d buf count =
      some (some (listing k k.processLine (Int32.ofNat k.processes.length))) := by
  have hentry : Sys2.entry (Sys2.stored buf) = some ⟨bytes "showtask", .showtasklist⟩ :=
    List.find?_cons_of_pos (by simpa using h)
  rw [sys2_of_entry hentry, Sys2.handlerListing, Sys2.showtasklist,
    listProcesses_print_count hfuel]
  rfl

theorem sys2_of_showalltask (h : ¬ bytes "showtask" <+: Sys2.stored buf)
    (hall : bytes "showalltask" <+: Sys2.stored buf) (hfuel : k.processes.length < fuel) :
    Sys2.storeListing k fuel d buf count =
      some (some (listing k k.infoLine (Int32.ofNat k.processes.length))) := by
  have hentry : Sys2.entry (Sys2.stored buf) = some ⟨bytes "showalltask", .printTaskInfo⟩ := by
    rw [Sys2.entry, Sys2.commandHandlers, List.find?_cons_of_neg (by simpa using h)]
    exact List.find?_cons_of_pos (by simpa using hall)
  rw [sys2_of_entry hentry, Sys2.handlerListing, Sys2.printTaskInfo,
    listProcesses_print_count hfuel]
  rfl

theorem exists_handlerListing (h : Sys2.Handler) : ∃ second, ∀ fuel, k.processes.length < fuel →
    Sys2.handlerListing k fuel h = some second := by
  cases h with
  | showtasklist =>
      refine ⟨some (listing k k.processLine (Int32.ofNat k.processes.length)), ?_⟩
      intro fuel hfuel
      rw [Sys2.handlerListing, Sys2.showtasklist, listProcesses_print_count hfuel]
      rfl
  | printTaskInfo =>
      refine ⟨some (listing k k.infoLine (Int32.ofNat k.processes.length)), ?_⟩
      intro fuel hfuel
      rw [Sys2.handlerListing, Sys2.printTaskInfo, listProcesses_print_count hfuel]
      rfl
  | _ => exact ⟨none, fun _ _ => rfl⟩

theorem exists_storeListing (k : Tasks) (d : Sys2.MyData) (buf : List UInt8) (count : ℕ) :
    ∃ second, ∀ fuel, k.processes.length < fuel →
      Sys2.storeListing k fuel d buf count = some second := by
  cases hentry : Sys2.entry (Sys2.stored buf) with
  | none =>
      refine ⟨none, fun fuel _ => ?_⟩
      rw [Sys2.storeListing, Sys2.myDataStore_calls, hentry]
      rfl
  | some e =>
      obtain ⟨second, hsecond⟩ := exists_handlerListing (k := k) e.handler
      refine ⟨second, fun fuel hfuel => ?_⟩
      rw [sys2_of_entry hentry]
      exact hsecond fuel hfuel

end

section

variable {k : Tasks} {d d' : Sys2.MyData} {buf : List UInt8} {count : ℕ}
  {first second : Option (List TaskLine)}

theorem reproduces_iff_of
    (hfirst : ∀ fuel, k.processes.length < fuel →
      (Sys.myDataStore k fuel d buf count).map Sys.Store.listing = some first)
    (hsecond : ∀ fuel, k.processes.length < fuel →
      Sys2.storeListing k fuel d' buf count = some second) :
    Reproduces k d d' buf count ↔
      ∀ lines, first = some lines → second = some lines ∧ CountsProcesses lines := by
  constructor
  · rintro ⟨first', second', hrun, h⟩
    obtain ⟨hfirst', hsecond'⟩ := hrun (k.processes.length + 1) (Nat.lt_succ_self _)
    obtain rfl := Option.some.inj ((hfirst _ (Nat.lt_succ_self _)).symm.trans hfirst')
    obtain rfl := Option.some.inj ((hsecond _ (Nat.lt_succ_self _)).symm.trans hsecond')
    exact h
  · intro h
    exact ⟨first, second, fun fuel hfuel => ⟨hfirst fuel hfuel, hsecond fuel hfuel⟩, h⟩

theorem reproduces_iff_of_showtask (h : bytes "showtask" <+: Sys2.stored buf) :
    Reproduces k d d' buf count ↔ k.processes = [] := by
  rw [reproduces_iff_of (fun fuel hfuel => sys_of_showtask h hfuel)
    fun fuel hfuel => sys2_of_showtask h hfuel]
  have hcounts := countsProcesses_listing_iff k k.processLine (fun _ => rfl) 0
  rw [Int32.toInt_zero] at hcounts
  constructor
  · intro hsame
    have hlen := hcounts.1 (hsame _ rfl).2
    rw [← List.length_eq_zero_iff]
    omega
  · rintro hnil lines hlines
    obtain rfl := Option.some.inj hlines
    refine ⟨by rw [hnil]; rfl, hcounts.2 ?_⟩
    rw [hnil]
    rfl

theorem reproduces_iff_of_showalltask (h : ¬ bytes "showtask" <+: Sys2.stored buf)
    (hall : bytes "showalltask" <+: Sys2.stored buf) :
    Reproduces k d d' buf count ↔ k.processes.length < 0x80000000 := by
  rw [reproduces_iff_of (fun fuel hfuel => sys_of_showalltask h hall hfuel)
    fun fuel hfuel => sys2_of_showalltask h hall hfuel, ← toInt_ofNat_eq_iff,
    ← countsProcesses_listing_iff k k.infoLine fun _ => rfl]
  constructor
  · intro hsame
    exact (hsame _ rfl).2
  · intro hcounts lines hlines
    obtain rfl := Option.some.inj hlines
    exact ⟨rfl, hcounts⟩

theorem reproduces_of_other (h : ¬ bytes "showtask" <+: Sys2.stored buf)
    (hall : ¬ bytes "showalltask" <+: Sys2.stored buf) : Reproduces k d d' buf count := by
  obtain ⟨second, hsecond⟩ := exists_storeListing k d' buf count
  rw [reproduces_iff_of (fun _ _ => sys_of_other h hall) hsecond]
  exact nofun

end

/-- sys2 repeats what sys lists unless sys is asked by `showtask` to list a process, which it
does not count, or there are more processes than an `int` can count. -/
theorem sys2_reproduces_sys_iff (k : Tasks) (d d' : Sys2.MyData) (buf : List UInt8) (count : ℕ) :
    Reproduces k d d' buf count ↔ k.processes = [] ∨ ¬ bytes "showtask" <+: Sys2.stored buf ∧
      (bytes "showalltask" <+: Sys2.stored buf → k.processes.length < 0x80000000) := by
  by_cases h : bytes "showtask" <+: Sys2.stored buf
  · rw [reproduces_iff_of_showtask h]
    simp [h]
  · by_cases hall : bytes "showalltask" <+: Sys2.stored buf
    · rw [reproduces_iff_of_showalltask h hall]
      constructor
      · exact fun hlt => Or.inr ⟨h, fun _ => hlt⟩
      · rintro (hnil | hlt)
        · rw [hnil]
          decide
        · exact hlt.2 hall
    · exact iff_of_true (reproduces_of_other h hall) (Or.inr ⟨h, fun hyes => absurd hyes hall⟩)

theorem ring_oneProcess : Ring (fun t => (t + 1) % 2) 0 [1] := ⟨by decide, rfl, rfl⟩

def oneProcess : Tasks where
  next t := (t + 1) % 2
  initTask := 0
  processes := [1]
  ring := ring_oneProcess
  comm _ := bytes "init"
  pid t := t
  tgid t := t
  prio _ := 120
  staticPrio _ := 120
  normalPrio _ := 120

theorem sys_showtask_counts_none :
    (Sys.myDataStore oneProcess 2 Sys2.MyData.zero (bytes "showtask") 8).map Sys.Store.listing =
      some (some [.process (bytes "init") 1, .taskCount 0]) ∧
    Sys2.storeListing oneProcess 2 Sys2.MyData.zero (bytes "showtask") 8 =
      some (some [.process (bytes "init") 1, .taskCount 1]) ∧
    ¬ Reproduces oneProcess Sys2.MyData.zero Sys2.MyData.zero (bytes "showtask") 8 := by
  have hshow : bytes "showtask" <+: Sys2.stored (bytes "showtask") := by decide
  refine ⟨sys_of_showtask hshow (by decide), sys2_of_showtask hshow (by decide), ?_⟩
  rw [reproduces_iff_of_showtask hshow]
  exact List.cons_ne_nil 1 []

/-! ## The listing of the task list -/

/-- The lines and the counter are those of the model in which the tasks are compared. -/
theorem showtasklist_eq_map {k : Tasks} {fuel : ℕ} (hfuel : k.processes.length < fuel) :
    Sys2.showtasklist k fuel = (TaskList.showtasklist k.toTasks fuel).map fun s =>
      s.printed.map (fun line => .process line.comm line.pid) ++
        [.taskCount (Int32.ofNat s.iTaskCount)] := by
  rw [Sys2.showtasklist, listProcesses_print_count hfuel, TaskList.showtasklist_eq hfuel,
    TaskList.foldl_listing, Option.map_some, Nat.zero_add, List.nil_append, List.map_map]
  rfl

end ProcessListing
