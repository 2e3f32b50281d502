import LinuxDriver.Interleaving
import LinuxDriver.Strsep
import Mathlib.Data.List.Range
import Mathlib.Logic.Function.Basic

/-!
# The parse command of sys2

`parse_command` cuts a copy of its parameter at every space and prints the pieces. The pointer
that it cuts with is the one that it frees at the end.
-/

open CString Interleaving

namespace Sys2

/-- The array of the copy, `cmd_copy`, `param_count` and what has been printed. -/
structure Parse where
  mem : List UInt8
  cmdCopy : Option ℕ
  paramCount : ℕ
  printed : List (ℕ × List UInt8)

/-- The loop over the tokens, the first `strsep` included; `none` when the fuel runs out. -/
def parseLoop : ℕ → Parse → Option Parse
  | 0, _ => none
  | fuel + 1, p =>
      let cut := strsep p.mem p.cmdCopy [32]
      match cut.token with
      | none => some { p with mem := cut.mem, cmdCopy := cut.stringp }
      | some token =>
          parseLoop fuel ⟨cut.mem, cut.stringp, p.paramCount + 1,
            p.printed ++ [(p.paramCount + 1, text (cut.mem.drop token))]⟩

abbrev Heap := ℕ → Bool

abbrev Pointer := Option (ℕ × ℕ)

def kfree (live : Heap) : Pointer → Heap
  | none => live
  | some (block, _) => Function.update live block false

/-- What `parse_command` leaves: the heap, what it has printed and the pointer that it passed to
`kfree`, if it came to that. -/
structure Parsed where
  live : Heap
  printed : List (ℕ × List UInt8)
  freed : Option Pointer

/-- `copy` is the block that `kstrdup` returns. -/
def parseCommand (fuel : ℕ) (live : Heap) (cmd : List UInt8) (copy : Option ℕ) : Option Parsed :=
  match copy with
  | none => some ⟨live, [], none⟩
  | some block =>
      (parseLoop fuel ⟨text cmd ++ [0], some 0, 0, []⟩).map fun p =>
        let cmdCopy : Pointer := p.cmdCopy.map fun offset => (block, offset)
        ⟨kfree (Function.update live block true) cmdCopy, p.printed, some cmdCopy⟩

def numbered (n : ℕ) (tokens : List (List UInt8)) : List (ℕ × List UInt8) :=
  (List.range' (n + 1) tokens.length).zip tokens

theorem numbered_cons (n : ℕ) (token : List UInt8) (tokens : List (List UInt8)) :
    numbered n (token :: tokens) = (n + 1, token) :: numbered (n + 1) tokens := by
  rw [numbered, List.length_cons, List.range'_succ, List.zip_cons_cons, numbered]

theorem forall_notMem_singleton {s : List UInt8} {d : UInt8} (h : d ∉ s) :
    ∀ c ∈ s, c ∉ [d] := by
  intro c hc hd
  rw [List.mem_singleton.1 hd] at hc
  exact h hc

theorem parseLoop_eq {s : List UInt8} (hs : (0 : UInt8) ∉ s) {fuel : ℕ}
    (hfuel : s.count 32 + 2 ≤ fuel) (done rest : List UInt8) (n : ℕ)
    (out : List (ℕ × List UInt8)) :
    ∃ mem, parseLoop fuel ⟨done ++ (s ++ 0 :: rest), some done.length, n, out⟩ =
      some ⟨mem, none, n + (s.splitOn 32).length, out ++ numbered n (s.splitOn 32)⟩ := by
  induction fuel generalizing s done n out with
  | zero => omega
  | succ fuel ih =>
      by_cases hspace : (32 : UInt8) ∈ s
      · obtain ⟨word, s', rfl, hword⟩ := List.eq_append_cons_of_mem hspace
        obtain ⟨hzero, hzero'⟩ : (0 : UInt8) ∉ word ∧ (0 : UInt8) ∉ s' := by
          simpa [not_or] using hs
        have hcut : strsep (done ++ (word ++ 32 :: s' ++ 0 :: rest)) (some done.length) [32] = _ :=
          strsep_of_delimiter hs (forall_notMem_singleton hword) (List.mem_singleton_self 32)
        have hcount : (word ++ 32 :: s').count 32 = s'.count 32 + 1 := by
          rw [List.count_append, List.count_eq_zero_of_not_mem hword, List.count_cons_self,
            Nat.zero_add]
        obtain ⟨mem, hrest⟩ := ih hzero' (by omega) (done ++ (word ++ [0])) (n + 1)
          (out ++ [(n + 1, word)])
        have hmem : done ++ (word ++ [0]) ++ (s' ++ 0 :: rest) =
            done ++ (word ++ 0 :: (s' ++ 0 :: rest)) := by simp
        have hn : n + 1 + (s'.splitOn 32).length = n + ((s'.splitOn 32).length + 1) := by omega
        have hout : out ++ [(n + 1, word)] ++ numbered (n + 1) (s'.splitOn 32) =
            out ++ (n + 1, word) :: numbered (n + 1) (s'.splitOn 32) := List.append_assoc ..
        rw [hmem, hn, hout] at hrest
        refine ⟨mem, ?_⟩
        rw [List.splitOn_append_cons_self_of_not_mem hword, numbered_cons, List.length_cons,
          parseLoop, hcut]
        simp only [text_drop_append hzero]
        exact hrest
      · have hcut : strsep (done ++ (s ++ 0 :: rest)) (some done.length) [32] = _ :=
          strsep_of_forall hs (forall_notMem_singleton hspace)
        obtain ⟨fuel, rfl⟩ : ∃ k, fuel = k + 1 := ⟨fuel - 1, by omega⟩
        refine ⟨done ++ (s ++ 0 :: rest), ?_⟩
        rw [List.splitOn_eq_singleton hspace, numbered_cons, parseLoop, hcut]
        simp only [text_drop_append hs]
        rfl

/-- `kstrdup` makes a copy that ends in NUL, so the loop comes to its end. -/
theorem parseCommand_eq {fuel : ℕ} {cmd : List UInt8} (hfuel : (text cmd).length + 2 ≤ fuel)
    (live : Heap) (copy : Option ℕ) :
    parseCommand fuel live cmd copy = some (match copy with
      | none => ⟨live, [], none⟩
      | some block => ⟨Function.update live block true, numbered 0 ((text cmd).splitOn 32),
          some none⟩) := by
  cases copy with
  | none => rfl
  | some block =>
      have hcount : (text cmd).count 32 ≤ (text cmd).length := List.count_le_length
      have hspaces : (text cmd).count 32 + 2 ≤ fuel := by omega
      obtain ⟨mem, hloop⟩ := parseLoop_eq (zero_notMem_text cmd) hspaces [] [] 0 []
      rw [List.nil_append, List.nil_append, List.length_nil] at hloop
      rw [parseCommand, hloop]
      rfl

/-- The lines are numbered from 1, none has a space in it, and together they are the text. -/
structure LosesNothing (cmd : List UInt8) (printed : List (ℕ × List UInt8)) : Prop where
  numbered : printed.map Prod.fst = List.range' 1 printed.length
  spaceless : ∀ line ∈ printed, (32 : UInt8) ∉ line.2
  joined : [32].intercalate (printed.map Prod.snd) = text cmd
  total : printed.length = (text cmd).count 32 + 1

theorem losesNothing_numbered (cmd : List UInt8) :
    LosesNothing cmd (numbered 0 ((text cmd).splitOn 32)) := by
  have hlength : (numbered 0 ((text cmd).splitOn 32)).length = ((text cmd).splitOn 32).length := by
    simp [numbered]
  have hfst : (numbered 0 ((text cmd).splitOn 32)).map Prod.fst =
      List.range' 1 ((text cmd).splitOn 32).length := List.map_fst_zip (by simp)
  have hsnd : (numbered 0 ((text cmd).splitOn 32)).map Prod.snd = (text cmd).splitOn 32 :=
    List.map_snd_zip (by simp)
  constructor
  · rw [hfst, hlength]
  · intro line hline
    apply notMem_of_mem_splitOn (s := text cmd)
    rw [← hsnd]
    exact List.mem_map_of_mem hline
  · rw [hsnd]
    exact List.intercalate_splitOn 32
  · rw [hlength]
    exact length_splitOn (text cmd)

theorem parse_loses_nothing (live : Heap) (cmd : List UInt8) (block : ℕ) :
    ∃ out, (∀ fuel, (text cmd).length + 2 ≤ fuel →
      parseCommand fuel live cmd (some block) = some out) ∧ LosesNothing cmd out.printed :=
  ⟨_, fun _ hfuel => parseCommand_eq hfuel live (some block), losesNothing_numbered cmd⟩

/-! ## The copy -/

structure ParseCall where
  cmd : List UInt8
  copy : Option ℕ

def ParseCall.run (live : Heap) (c : ParseCall) : Option Parsed :=
  parseCommand ((text c.cmd).length + 2) live c.cmd c.copy

/-- A block that `kstrdup` returns was not live. -/
def ParseCall.step (live : Heap) (c : ParseCall) : Option Heap :=
  if c.copy.any live then none else (c.run live).map Parsed.live

structure ParseCall.Frees (live : Heap) (c : ParseCall) (out : Parsed) : Prop where
  pointer : ∀ p, out.freed = some p → p = c.copy.map fun block => (block, 0)
  heap : out.live = live

def FreesCopies (live : Heap) (calls : List ParseCall) : Prop :=
  ∀ pre c post v out, calls = pre ++ c :: post → exec ParseCall.step live pre = some v →
    c.run v = some out → c.Frees v out

theorem ParseCall.frees_iff {live : Heap} {c : ParseCall} {out : Parsed}
    (h : c.run live = some out) : c.Frees live out ↔ c.copy = none := by
  obtain ⟨cmd, copy⟩ := c
  rw [ParseCall.run, parseCommand_eq (Nat.le_refl _), Option.some.injEq] at h
  subst h
  cases copy with
  | none => exact iff_of_true ⟨by simp, rfl⟩ rfl
  | some block =>
      apply iff_of_false
      · intro hfrees
        have hpointer := hfrees.pointer none rfl
        contradiction
      · simp

theorem ParseCall.run_isSome (live : Heap) (c : ParseCall) : ∃ out, c.run live = some out :=
  ⟨_, parseCommand_eq (Nat.le_refl _) live c.copy⟩

theorem parse_frees_copies_iff {live live' : Heap} {calls : List ParseCall}
    (h : exec ParseCall.step live calls = some live') :
    FreesCopies live calls ↔ ∀ c ∈ calls, c.copy = none := by
  constructor
  · intro hfrees c hc
    obtain ⟨pre, post, rfl⟩ := List.append_of_mem hc
    rw [exec_append, Option.bind_eq_some_iff] at h
    obtain ⟨v, hv, -⟩ := h
    obtain ⟨out, hout⟩ := c.run_isSome v
    exact (ParseCall.frees_iff hout).1 (hfrees pre c post v out rfl hv hout)
  · rintro hnone pre c post v out rfl - hout
    exact (ParseCall.frees_iff hout).2 (hnone c (by simp))

def starved : List ParseCall := [⟨bytes "a b", none⟩, ⟨[], none⟩]

theorem parse_frees_copies_starved : FreesCopies (fun _ => false) starved := by
  have hrun : exec ParseCall.step (fun _ => false) starved = some fun _ => false := rfl
  exact (parse_frees_copies_iff hrun).2 (by simp [starved])

theorem parse_leaks_copy :
    (∃ out, (⟨bytes "a b", some 3⟩ : ParseCall).run (fun _ => false) = some out ∧
      out.freed = some none ∧ out.live 3 = true) ∧
    ¬ FreesCopies (fun _ => false) [⟨bytes "a b", some 3⟩] := by
  have hrun : ∃ out, (⟨bytes "a b", some 3⟩ : ParseCall).run (fun _ => false) = some out ∧
      out.freed = some none ∧ out.live 3 = true :=
    ⟨_, rfl, rfl, rfl⟩
  refine ⟨hrun, ?_⟩
  intro hfrees
  obtain ⟨out, hout, hfreed, -⟩ := hrun
  have hpointer := (hfrees [] _ [] _ out rfl rfl hout).pointer none hfreed
  contradiction

end Sys2
