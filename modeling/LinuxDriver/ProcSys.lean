import LinuxDriver.StringReads
import LinuxDriver.UserCopy
import Mathlib.Data.UInt

/-!
# What /proc/sys/my_module shows

`procsys/procsys.c`: `my_proc_write` copies straight into the array that `my_proc_show` prints. A
copy that faults has replaced the start of the array by then.
-/

open CString UserCopy

namespace ProcSys

def EFAULT : ℤ := 14

def sizeofUserData : ℕ := 256

/-- The static array `user_data`. Its last byte is NUL at load and after every write. -/
structure UserData where
  mem : ℕ → UInt8
  closed : mem (sizeofUserData - 1) = 0

/-- A call of `my_proc_write`, with what its copy does if it comes to that. -/
structure Call where
  count : ℕ
  copy : Transfer UInt8 count

namespace UserData

def zero : UserData := ⟨fun _ => 0, rfl⟩

def text (d : UserData) : List UInt8 := CString.text (load d.mem sizeofUserData)

/-- `copy_from_user(user_data, buf, count)`, which clears what a fault leaves. -/
def copyFromUser (d : UserData) (c : Call) (h : c.count < sizeofUserData) : UserData where
  mem := store (c.copy.stored true) d.mem
  closed := by
    have hlen := length_stored_le true c.copy
    rw [store_of_le (by omega)]
    exact d.closed

/-- The NUL that `my_proc_write` puts after the text. -/
def terminate (d : UserData) (k : ℕ) : UserData where
  mem := Function.update d.mem k 0
  closed := by
    rw [Function.update_apply]
    split
    · rfl
    · exact d.closed

end UserData

def line (text : List UInt8) : List UInt8 := bytes "User data: " ++ text ++ bytes "\n"

def myProcShow (d : UserData) : List UInt8 := line d.text

def myProcWrite (d : UserData) (c : Call) : UserData × ℤ :=
  if h : sizeofUserData ≤ c.count then (d, -EFAULT)
  else
    let d := d.copyFromUser c (Nat.lt_of_not_le h)
    if c.copy.left ≠ 0 then (d, -EFAULT) else (d.terminate c.count, c.count)

def after (calls : List Call) : UserData :=
  calls.foldl (fun d c => (myProcWrite d c).1) UserData.zero

def Call.fits (c : Call) : Bool := c.count < sizeofUserData

def Call.faults (c : Call) : Bool := c.copy.left ≠ 0

def Call.accepted (c : Call) : Bool := c.fits && !c.faults

/-- The bytes of the last call that succeeds. -/
def lastAccepted (calls : List Call) : List UInt8 :=
  calls.foldl (fun last c => if c.accepted then c.copy.moved else last) []

theorem line_inj {s t : List UInt8} : line s = line t ↔ s = t := by
  simp [line]

theorem after_concat (calls : List Call) (c : Call) :
    after (calls ++ [c]) = (myProcWrite (after calls) c).1 := by
  simp [after]

theorem lastAccepted_concat (calls : List Call) (c : Call) :
    lastAccepted (calls ++ [c]) = if c.accepted then c.copy.moved else lastAccepted calls := by
  simp [lastAccepted]

theorem result_neg_iff (d : UserData) (c : Call) :
    (myProcWrite d c).2 < 0 ↔ c.accepted = false := by
  have herr : -EFAULT < 0 := by decide
  unfold myProcWrite Call.accepted Call.fits Call.faults
  split_ifs with hsize hleft
  · exact iff_of_true herr (by simp [hsize])
  · exact iff_of_true herr (by simp [hleft])
  · rw [not_not] at hleft
    simp [hleft, Nat.lt_of_not_le hsize]

theorem myProcWrite_of_not_fits (d : UserData) {c : Call} (h : c.fits = false) :
    (myProcWrite d c).1 = d := by
  rw [Call.fits, decide_eq_false_iff_not, Nat.not_lt] at h
  rw [myProcWrite, dif_pos h]

theorem text_zero : UserData.zero.text = [] := by decide +kernel

theorem text_of_prefix {d : UserData} {s : List UInt8}
    (h : s ++ [0] <+: load d.mem sizeofUserData) : d.text = CString.text s := by
  obtain ⟨rest, hrest⟩ := h
  rw [UserData.text, ← hrest, List.append_assoc]
  exact text_append_nul s rest

/-- A copy that faults has moved its bytes, with a NUL after them. -/
theorem text_copyFromUser {d : UserData} {c : Call} (hfits : c.count < sizeofUserData)
    (hleft : c.copy.left ≠ 0) : (d.copyFromUser c hfits).text = CString.text c.copy.moved := by
  apply text_of_prefix
  have hlen := length_stored_le true c.copy
  refine List.IsPrefix.trans ?_ (prefix_load_store (by omega) d.mem)
  obtain ⟨m, hm⟩ := Nat.exists_eq_succ_of_ne_zero hleft
  rw [Transfer.stored, if_pos rfl, hm, List.replicate_succ]
  exact ⟨List.replicate m 0, List.append_assoc _ _ _⟩

theorem text_terminate {d : UserData} {c : Call} (hfits : c.count < sizeofUserData)
    (hleft : c.copy.left = 0) :
    ((d.copyFromUser c hfits).terminate c.count).text = CString.text c.copy.moved := by
  apply text_of_prefix
  have hcount := left_eq_zero_iff.1 hleft
  have hstored : c.copy.stored true = c.copy.moved := by
    rw [Transfer.stored, hleft, List.replicate_zero, ite_self, List.append_nil]
  simp only [UserData.terminate, UserData.copyFromUser, hstored]
  have hconcat := store_concat c.copy.moved 0 d.mem
  rw [hcount] at hconcat
  rw [← hconcat]
  apply prefix_load_store
  rw [List.length_append, hcount]
  exact hfits

theorem text_myProcWrite (d : UserData) {c : Call} (h : c.fits = true) :
    (myProcWrite d c).1.text = CString.text c.copy.moved := by
  rw [Call.fits, decide_eq_true_eq] at h
  rw [myProcWrite, dif_neg (Nat.not_le.2 h)]
  by_cases hleft : c.copy.left = 0
  · simp only [hleft, ne_eq, not_true_eq_false, if_false]
    exact text_terminate h hleft
  · simp only [hleft, ne_eq, not_false_eq_true, if_true]
    exact text_copyFromUser h hleft

/-- The array shows the bytes of the last call that succeeded, and a call that fails changes
nothing of what is shown. -/
structure ShowsLastAccepted (calls : List Call) : Prop where
  shown : myProcShow (after calls) = line (CString.text (lastAccepted calls))
  unaffected : ∀ pre c post, calls = pre ++ c :: post → (myProcWrite (after pre) c).2 < 0 →
    myProcShow (after (pre ++ [c])) = myProcShow (after pre)

/-- Every call whose copy faults has moved what is shown already. -/
def FaultsRepeat (calls : List Call) : Prop :=
  ∀ pre c post, calls = pre ++ c :: post → c.fits = true → c.faults = true →
    CString.text c.copy.moved = CString.text (lastAccepted pre)

theorem text_after_concat {pre : List Call} {c : Call}
    (hpre : (after pre).text = CString.text (lastAccepted pre))
    (hfault : c.fits = true → c.faults = true →
      CString.text c.copy.moved = CString.text (lastAccepted pre)) :
    (after (pre ++ [c])).text = CString.text (lastAccepted (pre ++ [c])) := by
  rw [after_concat, lastAccepted_concat]
  cases hfits : c.fits with
  | false =>
      rw [myProcWrite_of_not_fits _ hfits, Call.accepted, hfits]
      exact hpre
  | true =>
      rw [text_myProcWrite _ hfits, Call.accepted, hfits]
      cases hfaults : c.faults with
      | false => rfl
      | true => exact hfault hfits hfaults

theorem text_after {calls : List Call} (h : FaultsRepeat calls) {pre post : List Call}
    (hcalls : calls = pre ++ post) :
    (after pre).text = CString.text (lastAccepted pre) := by
  induction pre using List.reverseRecOn generalizing post with
  | nil => exact text_zero
  | append_singleton pre c ih =>
      rw [List.append_assoc] at hcalls
      exact text_after_concat (ih hcalls) (h pre c post hcalls)

theorem text_after_of_unaffected {calls : List Call} (h : ShowsLastAccepted calls)
    {pre post : List Call} (hcalls : calls = pre ++ post) :
    (after pre).text = CString.text (lastAccepted pre) := by
  induction pre using List.reverseRecOn generalizing post with
  | nil => exact text_zero
  | append_singleton pre c ih =>
      rw [List.append_assoc] at hcalls
      have hpre := ih hcalls
      cases hacc : c.accepted with
      | false =>
          have hsame := h.unaffected pre c post hcalls ((result_neg_iff _ _).2 hacc)
          rw [line_inj.1 hsame, lastAccepted_concat, hacc]
          exact hpre
      | true =>
          apply text_after_concat hpre
          intro _ hfaults
          rw [Call.accepted, hfaults, Bool.not_true, Bool.and_false] at hacc
          contradiction

theorem procsys_shows_last_accepted_iff (calls : List Call) :
    ShowsLastAccepted calls ↔ FaultsRepeat calls := by
  constructor
  · intro h pre c post hcalls hfits hfaults
    have hpre := text_after_of_unaffected h hcalls
    have hacc : c.accepted = false := by
      rw [Call.accepted, hfaults, Bool.not_true, Bool.and_false]
    have hsame := line_inj.1 (h.unaffected pre c post hcalls ((result_neg_iff _ _).2 hacc))
    rw [after_concat, text_myProcWrite _ hfits] at hsame
    rw [hsame, hpre]
  · intro h
    refine ⟨?_, ?_⟩
    · exact line_inj.2 (text_after h (List.append_nil calls).symm)
    · intro pre c post hcalls hneg
      have hacc := (result_neg_iff _ _).1 hneg
      have hpre := text_after h hcalls
      have hcalls' : calls = (pre ++ [c]) ++ post := by
        rw [List.append_assoc]
        exact hcalls
      have hnext := text_after h hcalls'
      rw [lastAccepted_concat, hacc] at hnext
      exact line_inj.2 (hnext.trans hpre.symm)

def torn : List Call :=
  [⟨2, ⟨bytes "ok", by decide⟩⟩, ⟨3, ⟨bytes "ba", by decide⟩⟩]

theorem procsys_shows_failed_write :
    (myProcWrite (after (torn.take 1)) ⟨3, ⟨bytes "ba", by decide⟩⟩).2 = -EFAULT ∧
      myProcShow (after torn) = line (bytes "ba") ∧ lastAccepted torn = bytes "ok" ∧
      ¬ ShowsLastAccepted torn := by
  have hret : (myProcWrite (after (torn.take 1)) ⟨3, ⟨bytes "ba", by decide⟩⟩).2 = -EFAULT := by
    decide +kernel
  have hshow : myProcShow (after torn) = line (bytes "ba") := by decide +kernel
  have hlast : lastAccepted torn = bytes "ok" := by decide +kernel
  refine ⟨hret, hshow, hlast, ?_⟩
  intro h
  have hshown := h.shown
  rw [hshow, hlast] at hshown
  exact absurd hshown (by decide)

/-! ## Where a call stores -/

structure Store where
  index : ℕ
  byte : UInt8

def Store.apply (mem : ℕ → UInt8) (w : Store) : ℕ → UInt8 := Function.update mem w.index w.byte

/-- The stores of a copy to the start of `user_data`, in order. -/
def copyStores (stored : List UInt8) : List Store :=
  stored.zipIdx.map fun c => ⟨c.2, c.1⟩

/-- The stores of a call: none, those of the copy alone if it faults, or the terminator too. -/
def Call.stores (c : Call) : List Store :=
  if sizeofUserData ≤ c.count then []
  else copyStores (c.copy.stored true) ++ if c.copy.left ≠ 0 then [] else [⟨c.count, 0⟩]

/-- Every call makes its stores inside the array, and what is shown ends inside it. -/
structure StaysInside (calls : List Call) : Prop where
  stores : ∀ pre c post, calls = pre ++ c :: post →
    (after (pre ++ [c])).mem = c.stores.foldl Store.apply (after pre).mem ∧
      ∀ w ∈ c.stores, w.index < sizeofUserData
  terminated : ∃ i < sizeofUserData, (after calls).mem i = 0
  reads : ∀ i ∈ stringReads (load (after calls).mem sizeofUserData) 0, i < sizeofUserData

theorem foldl_copyStores (bytes : List UInt8) (mem : ℕ → UInt8) :
    (copyStores bytes).foldl Store.apply mem = store bytes mem := by
  induction bytes using List.reverseRecOn with
  | nil => rfl
  | append_singleton bytes b ih =>
      rw [copyStores, List.zipIdx_append, List.map_append, List.foldl_append]
      change List.foldl _ ((copyStores bytes).foldl Store.apply mem) _ = _
      rw [ih, store_concat]
      simp [Store.apply]

theorem index_lt_of_mem_copyStores {bytes : List UInt8} {w : Store} (h : w ∈ copyStores bytes) :
    w.index < bytes.length := by
  obtain ⟨⟨b, i⟩, hmem, rfl⟩ := List.mem_map.1 h
  exact List.snd_lt_of_mem_zipIdx hmem

theorem mem_myProcWrite (d : UserData) (c : Call) :
    (myProcWrite d c).1.mem = c.stores.foldl Store.apply d.mem := by
  unfold myProcWrite Call.stores
  split_ifs with hsize hleft
  · rfl
  · rw [List.append_nil, foldl_copyStores]
    rfl
  · rw [List.foldl_append, foldl_copyStores]
    rfl

theorem stores_inside (c : Call) : ∀ w ∈ c.stores, w.index < sizeofUserData := by
  intro w hw
  have hlen := length_stored_le true c.copy
  unfold Call.stores at hw
  split at hw
  · exact absurd hw List.not_mem_nil
  · rcases List.mem_append.1 hw with hw | hw
    · have hlt := index_lt_of_mem_copyStores hw
      omega
    · split at hw
      · exact absurd hw List.not_mem_nil
      · rw [List.mem_singleton] at hw
        subst w
        change c.count < sizeofUserData
        omega

theorem user_data_terminated (calls : List Call) : StaysInside calls := by
  have hlast := (after calls).closed
  have hterm : Terminated (load (after calls).mem sizeofUserData) 0 := by
    refine ⟨sizeofUserData - 1, Nat.zero_le _, ?_⟩
    rw [load, List.getElem?_map, List.getElem?_range (by decide), Option.map_some, hlast]
  refine ⟨?_, ⟨sizeofUserData - 1, by decide, hlast⟩, ?_⟩
  · rintro pre c post -
    rw [after_concat]
    exact ⟨mem_myProcWrite _ c, stores_inside c⟩
  · have hreads := stringReads_inside_iff.2 hterm
    rwa [length_load] at hreads

end ProcSys
