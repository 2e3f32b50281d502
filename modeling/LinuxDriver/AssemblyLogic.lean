import Mathlib.Data.List.Basic

/-!
# Control flow of an assembly listing, and a logic for it

A listing is a list of labels and instructions. Between two instructions an event may change
the state; a run follows a list of ticks, each the next instruction or an event. `Holds` says
of a piece of the listing that whenever a run from it leaves the listing, the exit condition
holds, whatever events came between. The rules follow the listing line by line; the index
counts ticks and carries the induction through loops. `Passes` says that a run that leaves the
listing comes to a line on its way, and `Ends` that a run without events does leave the listing,
or comes to a given kind of state.
-/

namespace Assembly

variable {Label Instr State Event : Type*}

inductive Line (Label Instr : Type*) where
  | label (l : Label)
  | instr (i : Instr)
  deriving DecidableEq

/-- What an instruction does: control goes on, goes to a label, or leaves the listing. -/
inductive Effect (Label State : Type*) where
  | next (s : State)
  | jump (l : Label) (s : State)
  | leave

structure Machine (Label Instr State Event : Type*) where
  listing : List (Line Label Instr)
  exec : Instr → State → Effect Label State
  event : Event → State → State

structure Config (Label Instr State : Type*) where
  code : List (Line Label Instr)
  state : State

/-- The listing from label `l` on. -/
def goto [DecidableEq Label] (l : Label) : List (Line Label Instr) → List (Line Label Instr)
  | [] => []
  | .label l' :: rest => if l' = l then .label l' :: rest else goto l rest
  | .instr _ :: rest => goto l rest

/-- A listing made of labelled blocks. -/
def lines (blocks : List (Label × List Instr)) : List (Line Label Instr) :=
  blocks.flatMap fun b => .label b.1 :: b.2.map .instr

section Blocks

variable [DecidableEq Label] {blocks front back : List (Label × List Instr)} {l l' : Label}
  {is is' : List Instr}

theorem goto_instrs (is : List Instr) (rest : List (Line Label Instr)) :
    goto l (is.map .instr ++ rest) = goto l rest := by
  induction is with
  | nil => rfl
  | cons i is ih => exact ih

theorem goto_lines (h : l ∉ front.map Prod.fst) :
    goto l (lines (front ++ (l, is) :: back)) = lines ((l, is) :: back) := by
  induction front with
  | nil => exact if_pos rfl
  | cons b front ih =>
      rw [List.map_cons, List.mem_cons, not_or] at h
      have hline : lines (b :: front ++ (l, is) :: back) =
          .label b.1 :: (b.2.map .instr ++ lines (front ++ (l, is) :: back)) := rfl
      rw [hline, goto, if_neg (Ne.symm h.1), goto_instrs, ih h.2]

theorem goto_lines_of_split (hnodup : (blocks.map Prod.fst).Nodup)
    (hsplit : blocks = front ++ (l, is) :: back) :
    goto l (lines blocks) = .label l :: (is.map .instr ++ lines back) := by
  subst hsplit
  rw [List.map_append, List.map_cons] at hnodup
  have hdisjoint := (List.nodup_append.1 hnodup).2.2
  rw [goto_lines fun hmem => hdisjoint l hmem l List.mem_cons_self rfl]
  rfl

theorem goto_lines_of_mem (hnodup : (blocks.map Prod.fst).Nodup) (h : (l, is) ∈ blocks) :
    ∃ rest, goto l (lines blocks) = .label l :: (is.map .instr ++ rest) := by
  obtain ⟨front, back, hsplit⟩ := List.append_of_mem h
  exact ⟨lines back, goto_lines_of_split hnodup hsplit⟩

/-- A block whose end falls through to the next label. -/
theorem goto_lines_of_next (hnodup : (blocks.map Prod.fst).Nodup) {k : ℕ}
    (h : blocks[k]? = some (l, is)) (h' : blocks[k + 1]? = some (l', is')) :
    goto l (lines blocks) = .label l :: (is.map .instr ++ goto l' (lines blocks)) := by
  have hsplit : ∀ {j : ℕ} {b : Label × List Instr}, blocks[j]? = some b →
      blocks = blocks.take j ++ b :: blocks.drop (j + 1) := by
    intro j b hj
    obtain ⟨hlt, rfl⟩ := List.getElem?_eq_some_iff.1 hj
    rw [← List.drop_eq_getElem_cons hlt, List.take_append_drop]
  have hback : blocks.drop (k + 1) = (l', is') :: blocks.drop (k + 2) := by
    obtain ⟨hlt, heq⟩ := List.getElem?_eq_some_iff.1 h'
    rw [List.drop_eq_getElem_cons hlt, heq]
  rw [goto_lines_of_split hnodup (hsplit h), goto_lines_of_split hnodup (hsplit h'), hback]
  rfl

end Blocks

namespace Machine

variable [DecidableEq Label] (m : Machine Label Instr State Event)

def step (c : Config Label Instr State) : Option Event → Config Label Instr State
  | some e => { c with state := m.event e c.state }
  | none =>
      match c.code with
      | [] => c
      | .label _ :: rest => { c with code := rest }
      | .instr i :: rest =>
          match m.exec i c.state with
          | .next s => ⟨rest, s⟩
          | .jump l s => ⟨goto l m.listing, s⟩
          | .leave => c

def run (c : Config Label Instr State) (ticks : List (Option Event)) :
    Config Label Instr State :=
  ticks.foldl m.step c

/-- Instruction `i` takes control out of the listing. -/
def Leaves (c : Config Label Instr State) (i : Instr) : Prop :=
  c.code.head? = some (.instr i) ∧ m.exec i c.state = .leave

/-- At a tick of the run from `c`, instruction `i` is executed in state `s`. -/
def Executes (c : Config Label Instr State) (ticks : List (Option Event)) (i : Instr)
    (s : State) : Prop :=
  ∃ before after, ticks = before ++ none :: after ∧
    (m.run c before).code.head? = some (.instr i) ∧ (m.run c before).state = s

/-- Events keep the assertion. -/
def Stable (P : State → Prop) : Prop := ∀ e s, P s → P (m.event e s)

/-- Within `n` ticks from `code`, a run leaves the listing only as `Q` says. -/
def Holds (Q : Instr → State → Prop) (n : ℕ) (P : State → Prop)
    (code : List (Line Label Instr)) : Prop :=
  ∀ s, P s → ∀ ticks : List (Option Event), ticks.length ≤ n →
    ∀ i, m.Leaves (m.run ⟨code, s⟩ ticks) i → Q i (m.run ⟨code, s⟩ ticks).state

/-- A run from `code` that leaves the listing comes to `code'`, and takes its first line in a state
of `P'`. -/
def Passes (P : State → Prop) (code : List (Line Label Instr)) (P' : State → Prop)
    (code' : List (Line Label Instr)) : Prop :=
  ∀ s, P s → ∀ ticks : List (Option Event), (∃ i, m.Leaves (m.run ⟨code, s⟩ ticks) i) →
    ∃ before after s', ticks = before ++ none :: after ∧
      m.run ⟨code, s⟩ before = ⟨code', s'⟩ ∧ P' s'

variable {m} {Q : Instr → State → Prop} {n : ℕ} {P P' : State → Prop} {i : Instr} {l : Label}
  {code rest : List (Line Label Instr)}

theorem Holds.anti {k : ℕ} (h : m.Holds Q n P code) (hk : k ≤ n) : m.Holds Q k P code :=
  fun s hs ticks hlen => h s hs ticks (Nat.le_trans hlen hk)

theorem Holds.weaken (h : m.Holds Q n P code) (hP : ∀ s, P' s → P s) : m.Holds Q n P' code :=
  fun s hs => h s (hP s hs)

theorem Holds.exit {Q' : Instr → State → Prop} (h : m.Holds Q n P code)
    (hQ : ∀ i s, Q i s → Q' i s) : m.Holds Q' n P code :=
  fun s hs ticks hlen i hi => hQ i _ (h s hs ticks hlen i hi)

theorem Holds.false : m.Holds Q n (fun _ => False) code := fun _ hs => hs.elim

/-- A run from a line: events first, then the line, unless it stays where it is. -/
theorem Holds.line (hP : m.Stable P) (hexit : ∀ s i, P s → m.Leaves ⟨code, s⟩ i → Q i s)
    (hstep : ∀ s, P s → m.step ⟨code, s⟩ none = ⟨code, s⟩ ∨
      ∀ ticks : List (Option Event), ticks.length < n →
        ∀ i, m.Leaves (m.run (m.step ⟨code, s⟩ none) ticks) i →
          Q i (m.run (m.step ⟨code, s⟩ none) ticks).state) : m.Holds Q n P code := by
  intro s hs ticks hlen i
  induction ticks generalizing s with
  | nil => exact hexit s i hs
  | cons tick ticks ih =>
      have hlen' : ticks.length < n := hlen
      cases tick with
      | some e => exact ih (m.event e s) (hP e s hs) (Nat.le_of_lt hlen')
      | none =>
          rw [run, List.foldl_cons]
          rcases hstep s hs with hstay | hgo
          · rw [hstay]
            exact ih s hs (Nat.le_of_lt hlen')
          · exact hgo ticks hlen' i

omit [DecidableEq Label] in
theorem not_leaves_label (s : State) (i : Instr) : ¬ m.Leaves ⟨.label l :: rest, s⟩ i := by
  rintro ⟨hhead, -⟩
  cases hhead

theorem Holds.label (hP : m.Stable P) (h : m.Holds Q n P rest) :
    m.Holds Q (n + 1) P (.label l :: rest) := by
  refine Holds.line hP (fun s i _ hl => absurd hl (not_leaves_label s i)) ?_
  intro s hs
  exact Or.inr fun ticks hlen => h s hs ticks (Nat.le_of_lt_succ hlen)

theorem Holds.instr (P' : State → Prop) {J : Label → State → Prop} (hP : m.Stable P)
    (hexec : ∀ s, P s → (∃ s', m.exec i s = .next s' ∧ P' s') ∨
      (∃ l s', m.exec i s = .jump l s' ∧ J l s') ∨ (m.exec i s = .leave ∧ Q i s))
    (hnext : m.Holds Q n P' rest) (hjump : ∀ l, m.Holds Q n (J l) (goto l m.listing)) :
    m.Holds Q n P (.instr i :: rest) := by
  refine Holds.line hP ?_ ?_
  · rintro s j hs ⟨hhead, hleave⟩
    cases hhead
    rcases hexec s hs with ⟨s', h, -⟩ | ⟨l, s', h, -⟩ | ⟨-, hQ⟩
    · cases hleave.symm.trans h
    · cases hleave.symm.trans h
    · exact hQ
  · intro s hs
    rcases hexec s hs with ⟨s', h, hs'⟩ | ⟨l, s', h, hs'⟩ | ⟨h, -⟩
    · simp only [step, h]
      exact Or.inr fun ticks hlen => hnext s' hs' ticks (Nat.le_of_lt hlen)
    · simp only [step, h]
      exact Or.inr fun ticks hlen => hjump l s' hs' ticks (Nat.le_of_lt hlen)
    · simp only [step, h]
      exact Or.inl trivial

theorem Holds.next (hP : m.Stable P) (hexec : ∀ s, P s → ∃ s', m.exec i s = .next s' ∧ P' s')
    (hnext : m.Holds Q n P' rest) : m.Holds Q n P (.instr i :: rest) :=
  Holds.instr P' hP (J := fun _ _ => False) (fun s hs => Or.inl (hexec s hs)) hnext
    fun _ => Holds.false

theorem holds_goto {Pj : State → Prop} (h : m.Holds Q n Pj (goto l m.listing)) (l' : Label) :
    m.Holds Q n (fun s => l' = l ∧ Pj s) (goto l' m.listing) := by
  rintro s ⟨rfl, hs⟩
  exact h s hs

theorem Holds.jump {Pj : State → Prop} (hP : m.Stable P)
    (hexec : ∀ s, P s → ∃ s', m.exec i s = .jump l s' ∧ Pj s')
    (hjump : m.Holds Q n Pj (goto l m.listing)) : m.Holds Q n P (.instr i :: rest) := by
  refine Holds.instr (fun _ => False) hP (fun s hs => Or.inr (Or.inl ?_)) Holds.false
    (holds_goto hjump)
  obtain ⟨s', h, hs'⟩ := hexec s hs
  exact ⟨l, s', h, rfl, hs'⟩

theorem Holds.branch {Pj : State → Prop} (hP : m.Stable P)
    (hexec : ∀ s, P s → (∃ s', m.exec i s = .next s' ∧ P' s') ∨
      ∃ s', m.exec i s = .jump l s' ∧ Pj s')
    (hnext : m.Holds Q n P' rest) (hjump : m.Holds Q n Pj (goto l m.listing)) :
    m.Holds Q n P (.instr i :: rest) := by
  refine Holds.instr P' hP (fun s hs => ?_) hnext (holds_goto hjump)
  rcases hexec s hs with h | ⟨s', h, hs'⟩
  · exact Or.inl h
  · exact Or.inr (Or.inl ⟨l, s', h, rfl, hs'⟩)

theorem Holds.leave (hP : m.Stable P) (hexec : ∀ s, P s → m.exec i s = .leave ∧ Q i s) :
    m.Holds Q n P (.instr i :: rest) :=
  Holds.instr (fun _ => False) hP (J := fun _ _ => False)
    (fun s hs => Or.inr (Or.inr (hexec s hs))) Holds.false fun _ => Holds.false

/-- An instruction that goes on to the next line and does not see events. -/
def Straight (m : Machine Label Instr State Event) (f : Instr → State → State) (i : Instr) :
    Prop :=
  (∀ s, m.exec i s = .next (f i s)) ∧ ∀ e s, m.event e (f i s) = f i (m.event e s)

omit [DecidableEq Label] in
theorem Stable.image {f : State → State} (hP : m.Stable P)
    (hf : ∀ e s, m.event e (f s) = f (m.event e s)) : m.Stable fun s' => ∃ s, P s ∧ f s = s' := by
  rintro e _ ⟨s, hs, rfl⟩
  exact ⟨m.event e s, hP e s hs, (hf e s).symm⟩

omit [DecidableEq Label] in
/-- A judgement that a single instruction carries over is carried over by a straight block. -/
theorem straight_block {J : (State → Prop) → List (Line Label Instr) → Prop}
    {f : Instr → State → State} {is : List Instr} (his : ∀ i ∈ is, m.Straight f i)
    (hJ : ∀ P P₁ i code, m.Stable P → (∀ s, P s → ∃ s', m.exec i s = .next s' ∧ P₁ s') →
      J P₁ code → J P (.instr i :: code)) (hP : m.Stable P)
    (hpost : ∀ s, P s → P' (is.foldl (fun s i => f i s) s))
    (hrest : ∀ P, (∀ s, P s → P' s) → J P rest) : J P (is.map .instr ++ rest) := by
  induction is generalizing P with
  | nil => exact hrest P hpost
  | cons i is ih =>
      have hi := his i List.mem_cons_self
      have hmid := hP.image (f := f i) hi.2
      refine hJ P _ i _ hP (fun s hs => ⟨f i s, hi.1 s, s, hs, rfl⟩)
        (ih (fun j hj => his j (List.mem_cons_of_mem i hj)) hmid ?_)
      rintro _ ⟨s, hs, rfl⟩
      exact hpost s hs

theorem Holds.straight {f : Instr → State → State} {is : List Instr}
    (his : ∀ i ∈ is, m.Straight f i) (hP : m.Stable P)
    (hpost : ∀ s, P s → P' (is.foldl (fun s i => f i s) s)) (hnext : m.Holds Q n P' rest) :
    m.Holds Q n P (is.map .instr ++ rest) :=
  straight_block (J := m.Holds Q n) his (fun _ _ _ _ => Holds.next) hP hpost
    fun _ => hnext.weaken

/-- A loop: the assertion at its label may be used where control comes back to it. -/
theorem Holds.loop (hP : m.Stable P)
    (hbody : ∀ n, m.Holds Q n P (.label l :: rest) → m.Holds Q n P rest) :
    m.Holds Q n P (.label l :: rest) := by
  induction n with
  | zero =>
      refine Holds.line hP (fun s i _ hl => absurd hl (not_leaves_label s i)) ?_
      intro s hs
      exact Or.inr fun ticks hlen => absurd hlen (Nat.not_lt_zero _)
  | succ n ih => exact Holds.label hP (hbody n ih)

section Passing

variable {P₁ : State → Prop} {code' : List (Line Label Instr)}

theorem run_append (c : Config Label Instr State) (ticks ticks' : List (Option Event)) :
    m.run c (ticks ++ ticks') = m.run (m.run c ticks) ticks' :=
  List.foldl_append

theorem executes_of_run {c : Config Label Instr State} {before : List (Option Event)}
    {s : State} (hrun : m.run c before = ⟨.instr i :: rest, s⟩) (after : List (Option Event)) :
    m.Executes c (before ++ none :: after) i s :=
  ⟨before, after, rfl, congrArg (fun c => c.code.head?) hrun, congrArg Config.state hrun⟩

theorem Passes.weaken (h : m.Passes P code P' code') (hP : ∀ s, P₁ s → P s) :
    m.Passes P₁ code P' code' :=
  fun s hs => h s (hP s hs)

/-- Events first, then the line. -/
theorem Passes.here (hP : m.Stable P) (hstay : ∀ s i, P s → ¬ m.Leaves ⟨code, s⟩ i) :
    m.Passes P code P code := by
  rintro s hs ticks ⟨i, hi⟩
  induction ticks generalizing s with
  | nil => exact absurd hi (hstay s i hs)
  | cons tick ticks ih =>
      cases tick with
      | none => exact ⟨[], ticks, s, rfl, rfl, hs⟩
      | some e =>
          obtain ⟨before, after, s', rfl, hrun, hs'⟩ := ih (m.event e s) (hP e s hs) hi
          exact ⟨some e :: before, after, s', rfl, hrun, hs'⟩

/-- The line that is passed, the state before it and behind it, and the run from there. -/
theorem Passes.taken (h : m.Passes P code P' code') {R : State → State → Prop}
    (hstep : ∀ s, P' s → ∃ s', m.step ⟨code', s⟩ none = ⟨rest, s'⟩ ∧ R s s') {s : State}
    (hs : P s) {ticks : List (Option Event)} (hleave : ∃ i, m.Leaves (m.run ⟨code, s⟩ ticks) i) :
    ∃ before after s₁ s₂, ticks = before ++ none :: after ∧
      m.run ⟨code, s⟩ before = ⟨code', s₁⟩ ∧ P' s₁ ∧ R s₁ s₂ ∧
      ∀ ticks', m.run ⟨code, s⟩ (before ++ none :: ticks') = m.run ⟨rest, s₂⟩ ticks' := by
  obtain ⟨before, after, s₁, hticks, hrun, hs₁⟩ := h s hs ticks hleave
  obtain ⟨s₂, htaken, hR⟩ := hstep s₁ hs₁
  refine ⟨before, after, s₁, s₂, hticks, hrun, hs₁, hR, ?_⟩
  intro ticks'
  rw [run_append, hrun, ← htaken]
  rfl

theorem Passes.trans {code'' : List (Line Label Instr)} {P'' : State → Prop}
    (h : m.Passes P code P' code')
    (hstep : ∀ s, P' s → ∃ s', m.step ⟨code', s⟩ none = ⟨rest, s'⟩ ∧ P₁ s')
    (hrest : m.Passes P₁ rest P'' code'') : m.Passes P code P'' code'' := by
  intro s hs ticks hleave
  obtain ⟨before, after, s₁, s₂, rfl, -, -, hs₂, hgo⟩ := h.taken hstep hs hleave
  rw [hgo] at hleave
  obtain ⟨before', after', s', rfl, hrun, hs'⟩ := hrest s₂ hs₂ after hleave
  refine ⟨before ++ none :: before', after', s', ?_, (hgo before').trans hrun, hs'⟩
  rw [List.append_assoc, List.cons_append]

theorem Passes.label (hP : m.Stable P) (h : m.Passes P rest P' code') :
    m.Passes P (.label l :: rest) P' code' :=
  (Passes.here hP fun s i _ => not_leaves_label s i).trans (fun s hs => ⟨s, rfl, hs⟩) h

theorem Passes.line (hP : m.Stable P) (hexec : ∀ s, P s → ∃ s', m.exec i s = .next s') :
    m.Passes P (.instr i :: rest) P (.instr i :: rest) := by
  refine Passes.here hP ?_
  rintro s j hs ⟨hhead, hleave⟩
  cases hhead
  obtain ⟨s', h⟩ := hexec s hs
  cases h.symm.trans hleave

theorem Passes.next (hP : m.Stable P) (hexec : ∀ s, P s → ∃ s', m.exec i s = .next s' ∧ P₁ s')
    (h : m.Passes P₁ rest P' code') : m.Passes P (.instr i :: rest) P' code' := by
  refine (Passes.line hP fun s hs => (hexec s hs).imp fun _ => And.left).trans ?_ h
  intro s hs
  obtain ⟨s', heq, hs'⟩ := hexec s hs
  refine ⟨s', ?_, hs'⟩
  simp only [step, heq]

theorem Passes.straight {f : Instr → State → State} {is : List Instr}
    (his : ∀ i ∈ is, m.Straight f i) (hP : m.Stable P)
    (hpost : ∀ s, P s → P₁ (is.foldl (fun s i => f i s) s)) (h : m.Passes P₁ rest P' code') :
    m.Passes P (is.map .instr ++ rest) P' code' :=
  straight_block (J := fun P code => m.Passes P code P' code') his
    (fun _ _ _ _ => Passes.next) hP hpost fun _ => h.weaken

end Passing

variable (m) in
/-- A run from `code` without events leaves the listing or comes to a state of `R`. -/
def Ends (R P : State → Prop) (code : List (Line Label Instr)) : Prop :=
  ∀ s, P s → ∃ k : ℕ, (∃ i, m.Leaves (m.run ⟨code, s⟩ (List.replicate k none)) i) ∨
    R (m.run ⟨code, s⟩ (List.replicate k none)).state

variable {R : State → Prop}

theorem Ends.weaken (h : m.Ends R P code) (hP : ∀ s, P' s → P s) : m.Ends R P' code :=
  fun s hs => h s (hP s hs)

theorem Ends.here (hP : ∀ s, P s → R s) : m.Ends R P code := fun s hs => ⟨0, Or.inr (hP s hs)⟩

/-- One step of the run. -/
theorem Ends.step {code' : List (Line Label Instr)} {s s' : State} (h : m.Ends R P code')
    (hstep : m.step ⟨code, s⟩ none = ⟨code', s'⟩) (hs : P s') :
    ∃ k : ℕ, (∃ i, m.Leaves (m.run ⟨code, s⟩ (List.replicate k none)) i) ∨
      R (m.run ⟨code, s⟩ (List.replicate k none)).state := by
  obtain ⟨k, hk⟩ := h s' hs
  refine ⟨k + 1, ?_⟩
  rw [List.replicate_succ, run, List.foldl_cons, hstep]
  exact hk

theorem Ends.label (h : m.Ends R P rest) : m.Ends R P (.label l :: rest) :=
  fun _ hs => h.step rfl hs

theorem Ends.instr (P' : State → Prop) {J : Label → State → Prop}
    (hexec : ∀ s, P s → (∃ s', m.exec i s = .next s' ∧ P' s') ∨
      (∃ l s', m.exec i s = .jump l s' ∧ J l s') ∨ m.exec i s = .leave)
    (hnext : m.Ends R P' rest) (hjump : ∀ l, m.Ends R (J l) (goto l m.listing)) :
    m.Ends R P (.instr i :: rest) := by
  intro s hs
  rcases hexec s hs with ⟨s', h, hs'⟩ | ⟨l, s', h, hs'⟩ | h
  · refine hnext.step ?_ hs'
    simp only [Machine.step, h]
  · refine (hjump l).step ?_ hs'
    simp only [Machine.step, h]
  · exact ⟨0, Or.inl ⟨i, rfl, h⟩⟩

/-- A block ends when the code ends that it may jump to, and so does the code behind it unless
some instruction of the block does not go on. -/
theorem Ends.block (targets : Instr → List Label) (is : List Instr)
    (hexec : ∀ i ∈ is, ∀ s, (∃ s', m.exec i s = .next s') ∨
      (∃ l ∈ targets i, ∃ s', m.exec i s = .jump l s') ∨ m.exec i s = .leave)
    (hjump : ∀ i ∈ is, ∀ l ∈ targets i, m.Ends R (fun _ => True) (goto l m.listing))
    (hrest : (∃ i ∈ is, ∀ s s', m.exec i s ≠ .next s') ∨ m.Ends R (fun _ => True) rest) :
    m.Ends R (fun _ => True) (is.map .instr ++ rest) := by
  induction is with
  | nil =>
      rcases hrest with ⟨i, hi, -⟩ | hrest
      · cases hi
      · exact hrest
  | cons i is ih =>
      have hi : i ∈ i :: is := List.mem_cons_self
      have htail : (∀ s s', m.exec i s ≠ .next s') ∨
          m.Ends R (fun _ => True) (is.map .instr ++ rest) := by
        rcases hrest with ⟨j, hj, hstop⟩ | hrest
        · rcases List.mem_cons.1 hj with rfl | hj
          · exact Or.inl hstop
          · exact Or.inr (ih (fun j hj => hexec j (List.mem_cons_of_mem i hj))
              (fun j hj => hjump j (List.mem_cons_of_mem i hj)) (Or.inl ⟨j, hj, hstop⟩))
        · exact Or.inr (ih (fun j hj => hexec j (List.mem_cons_of_mem i hj))
            (fun j hj => hjump j (List.mem_cons_of_mem i hj)) (Or.inr hrest))
      have hto : ∀ l, m.Ends R (fun _ => l ∈ targets i) (goto l m.listing) :=
        fun l s hl => hjump i hi l hl s trivial
      rcases htail with hstop | htail
      · refine Ends.instr (fun _ => False) (fun s _ => ?_) (fun _ hs => hs.elim) hto
        rcases hexec i hi s with ⟨s', h⟩ | ⟨l, hl, s', h⟩ | h
        · exact absurd h (hstop s s')
        · exact Or.inr (Or.inl ⟨l, s', h, hl⟩)
        · exact Or.inr (Or.inr h)
      · refine Ends.instr (fun _ => True) (fun s _ => ?_) htail hto
        rcases hexec i hi s with ⟨s', h⟩ | ⟨l, hl, s', h⟩ | h
        · exact Or.inl ⟨s', h, trivial⟩
        · exact Or.inr (Or.inl ⟨l, s', h, hl⟩)
        · exact Or.inr (Or.inr h)

end Machine

end Assembly
