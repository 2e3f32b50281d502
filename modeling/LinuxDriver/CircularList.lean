import Mathlib.Data.List.Nodup
import Mathlib.Data.List.Perm.Basic

/-!
# Circular lists

An element of a circular list knows its successor only. A loop over the list starts behind its
head and ends when it is back at the head; the head itself is left out. Any element can be taken
for the head.
-/

namespace CircularList

universe u v

variable {α : Type*} {σ : Type u} {m : Type u → Type v}

/-- Following `next` from the first element leads through the list to the last one. -/
def Leads (next : α → α) : α → List α → α → Prop
  | a, [], b => next a = b
  | a, c :: l, b => next a = c ∧ Leads next c l b

structure Ring (next : α → α) (head : α) (l : List α) : Prop where
  nodup : (head :: l).Nodup
  leads : Leads next head l head

/-- The loop from `pos` on; `none` when the fuel runs out. -/
def walk [Monad m] [DecidableEq α] (next : α → α) (head : α) (body : σ → α → m σ) :
    ℕ → α → σ → m (Option σ)
  | 0, _, _ => pure none
  | fuel + 1, pos, s =>
      if pos = head then pure (some s)
      else body s pos >>= walk next head body fuel (next pos)

def forEach [Monad m] [DecidableEq α] (next : α → α) (head : α) (body : σ → α → m σ) (fuel : ℕ)
    (s : σ) : m (Option σ) :=
  walk next head body fuel (next head) s

variable {next : α → α} {a b head x : α} {l l' : List α}

theorem leads_append : Leads next a (l ++ x :: l') b ↔ Leads next a l x ∧ Leads next x l' b := by
  induction l generalizing a with
  | nil => exact Iff.rfl
  | cons c l ih => exact (and_congr_right fun _ => ih).trans and_assoc.symm

theorem walk_eq [Monad m] [LawfulMonad m] [DecidableEq α] (h : Leads next a l head)
    (hhead : head ∉ l) (body : σ → α → m σ) {fuel : ℕ} (hfuel : l.length < fuel) (s : σ) :
    walk next head body fuel (next a) s = some <$> l.foldlM body s := by
  induction l generalizing a s fuel with
  | nil =>
      obtain ⟨fuel, rfl⟩ := Nat.exists_eq_add_of_lt hfuel
      have hend : next a = head := h
      rw [hend, List.foldlM_nil, map_pure]
      exact if_pos rfl
  | cons c l ih =>
      obtain ⟨fuel, rfl⟩ := Nat.exists_eq_succ_of_ne_zero (Nat.ne_zero_of_lt hfuel)
      obtain ⟨rfl, htail⟩ := h
      have hc : next a ≠ head := fun heq => hhead (heq ▸ List.mem_cons_self)
      have hl : head ∉ l := fun hmem => hhead (List.mem_cons_of_mem _ hmem)
      rw [walk, if_neg hc, List.foldlM_cons, map_bind]
      congr 1
      funext s'
      exact ih htail hl (Nat.lt_of_succ_lt_succ hfuel) s'

/-- The loop visits every element but the head, once and in order. -/
theorem Ring.forEach_eq [Monad m] [LawfulMonad m] [DecidableEq α] (h : Ring next head l)
    (body : σ → α → m σ) {fuel : ℕ} (hfuel : l.length < fuel) (s : σ) :
    forEach next head body fuel s = some <$> l.foldlM body s :=
  walk_eq h.leads (List.nodup_cons.1 h.nodup).1 body hfuel s

theorem Ring.forEach_pure [DecidableEq α] (h : Ring next head l) (body : σ → α → σ) {fuel : ℕ}
    (hfuel : l.length < fuel) (s : σ) :
    forEach (m := Id) next head (fun s a => pure (body s a)) fuel s =
      pure (some (l.foldl body s)) := by
  rw [h.forEach_eq _ hfuel, List.foldlM_pure, map_pure]

/-- What a loop has seen, when its body sees one element. -/
theorem foldl_seen {seen : σ → List α} {body : σ → α → σ}
    (hbody : ∀ s c, seen (body s c) = seen s ++ [c]) (l : List α) (s : σ) :
    seen (l.foldl body s) = seen s ++ l := by
  induction l generalizing s with
  | nil => exact (List.append_nil _).symm
  | cons c l ih =>
      rw [List.foldl_cons, ih, hbody, List.append_assoc]
      rfl

theorem foldlM_cons_eq_ok {ε : Type u} {body : σ → α → Except ε σ} {c : α} {s s' : σ} :
    (c :: l).foldlM body s = .ok s' ↔
      ∃ mid, body s c = .ok mid ∧ l.foldlM body mid = .ok s' := by
  rw [List.foldlM_cons]
  cases body s c with
  | error e => exact iff_of_false nofun nofun
  | ok mid =>
      constructor
      · intro h
        exact ⟨mid, rfl, h⟩
      · rintro ⟨mid', hmid, h⟩
        cases hmid
        exact h

theorem rotate_perm (x a : α) (l l' : List α) :
    (x :: (l' ++ a :: l)).Perm (a :: (l ++ x :: l')) := by
  have hcomm : (x :: l' ++ a :: l).Perm (a :: l ++ x :: l') := List.perm_append_comm
  exact hcomm

theorem Ring.rotate (h : Ring next a (l ++ x :: l')) : Ring next x (l' ++ a :: l) := by
  obtain ⟨hfirst, hsecond⟩ := leads_append.1 h.leads
  constructor
  · exact (rotate_perm x a l l').nodup_iff.2 h.nodup
  · exact leads_append.2 ⟨hsecond, hfirst⟩

theorem Ring.reenter (h : Ring next head l) (hx : x ∈ head :: l) :
    ∃ l', Ring next x l' ∧ (x :: l').Perm (head :: l) := by
  rcases List.mem_cons.1 hx with rfl | hx
  · exact ⟨l, h, List.Perm.refl _⟩
  · obtain ⟨before, after, rfl⟩ := List.append_of_mem hx
    exact ⟨after ++ head :: before, h.rotate, rotate_perm x head before after⟩

theorem length_of_cons_perm (hperm : (x :: l').Perm (head :: l)) : l'.length = l.length :=
  Nat.succ_inj.1 hperm.length_eq

/-- Two heads see the same elements only if they are the same. -/
theorem Ring.same_iff (h : Ring next head l) (hperm : (x :: l').Perm (head :: l)) :
    (∀ t, t ∈ l' ↔ t ∈ l) ↔ x = head := by
  constructor
  · intro hsame
    by_contra hne
    have hmem : head ∈ x :: l' := hperm.mem_iff.2 List.mem_cons_self
    have htail : head ∈ l' := (List.mem_cons.1 hmem).resolve_left (Ne.symm hne)
    exact (List.nodup_cons.1 h.nodup).1 ((hsame head).1 htail)
  · rintro rfl t
    exact hperm.cons_inv.mem_iff

end CircularList
