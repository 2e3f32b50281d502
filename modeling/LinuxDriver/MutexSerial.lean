import LinuxDriver.MutexDriver

/-!
# Reads of the mutex driver are never torn

The sections between lock and unlock, in the order of the locks, are a serial history of the
driver taken as a sequential object.
-/

namespace MutexDriver

variable {ι : Type*}

/-- A call that holds the mutex works on what the completed sections left, and one that is about
to return has its section among them. -/
structure Accounted (pads : Bool) (first block : ℕ → UInt8) (sections : List (Section ι)) (i : ι)
    (c : Call) (stage : Stage) : Prop where
  held : stage.inside → Progress pads c ((driver pads ι).replay first sections) block stage
  reported : ∀ moved result, stage = .done moved result → ⟨i, c, moved, result⟩ ∈ sections

/-- The completed sections are serial, and they account for the block and for every call. -/
structure Inv (pads : Bool) (first : ℕ → UInt8) (w : World ι) : Prop where
  owner : ∀ i, w.Inside i ↔ w.memory.resourceMutex = some i
  order : w.lockOrder = w.sections.map Section.caller ++ w.memory.resourceMutex.toList
  serial : (driver pads ι).Serial first w.sections
  free : w.memory.resourceMutex = none →
    w.memory.resource = (driver pads ι).replay first w.sections
  calls : ∀ i c stage, w.caller i = some (c, stage) →
    Accounted pads first w.memory.resource w.sections i c stage

theorem inside_of {w : World ι} {i : ι} {c : Call} {stage : Stage}
    (hi : w.caller i = some (c, stage)) : w.Inside i ↔ stage.inside := by
  simp [World.Inside, hi]

theorem inv_initial (pads : Bool) (first : ℕ → UInt8) :
    Inv pads first (initial first : World ι) where
  owner i := by simp [World.Inside, initial]
  order := rfl
  serial := trivial
  free _ := rfl
  calls := by simp [initial]

theorem Inv.not_inside_of_free {pads : Bool} {first : ℕ → UInt8} {w : World ι}
    (h : Inv pads first w) (hfree : w.memory.resourceMutex = none) (i : ι) : ¬ w.Inside i := by
  rw [h.owner, hfree]
  exact (Option.some_ne_none i).symm

theorem Inv.eq_of_owner {pads : Bool} {first : ℕ → UInt8} {w : World ι} (h : Inv pads first w)
    {i j : ι} (hi : w.memory.resourceMutex = some i) (hj : w.Inside j) : j = i := by
  rw [h.owner, hi] at hj
  exact (Option.some.inj hj).symm

/-- A read that does not fail has moved the whole of its bound. -/
theorem moved_of_success {pads : Bool} {block : ℕ → UInt8} {s : Section ι} {count : UInt64}
    (h : (driver pads ι).Legal block s) (hread : s.call = .read count) (hok : 0 ≤ s.result) :
    s.moved = (List.range (bound count)).map block := by
  obtain ⟨⟨_, hmap⟩, hresult⟩ := h
  have hfull : s.moved.length = s.call.bound := by
    by_contra hshort
    rw [if_neg hshort] at hresult
    rw [hresult] at hok
    exact absurd hok (by decide)
  rw [hread] at hfull
  have hmoved := hmap count hread
  rwa [hfull] at hmoved

/-! ## One caller moves -/

variable [DecidableEq ι]

@[simp] theorem caller_setCaller_self (w : World ι) (i : ι) (c : Option (Call × Stage)) :
    (w.setCaller i c).caller i = c := Function.update_self ..

theorem caller_setCaller_of_ne (w : World ι) {i j : ι} (h : j ≠ i) (c : Option (Call × Stage)) :
    (w.setCaller i c).caller j = w.caller j := Function.update_of_ne h ..

theorem inside_setCaller_of_ne (w : World ι) {i j : ι} (h : j ≠ i) (c : Option (Call × Stage)) :
    (w.setCaller i c).Inside j ↔ w.Inside j := by
  rw [World.Inside, caller_setCaller_of_ne w h, World.Inside]

theorem forall_setCaller {w : World ι} {i : ι} {x : Option (Call × Stage)}
    {P : ι → Call → Stage → Prop} (hi : ∀ c stage, x = some (c, stage) → P i c stage)
    (hothers : ∀ j, j ≠ i → ∀ c stage, w.caller j = some (c, stage) → P j c stage) (j : ι)
    (c : Call) (stage : Stage) (hj : (w.setCaller i x).caller j = some (c, stage)) :
    P j c stage := by
  by_cases hji : j = i
  · subst hji
    rw [caller_setCaller_self] at hj
    exact hi c stage hj
  · rw [caller_setCaller_of_ne w hji] at hj
    exact hothers j hji c stage hj

/-- Whoever is inside after a caller has moved owns the mutex, if that is so of the caller and
nobody else is inside. -/
theorem owner_setCaller {w : World ι} {i : ι} {x : Option (Call × Stage)}
    (hi : x.any (·.2.inside) ↔ w.memory.resourceMutex = some i)
    (hothers : ∀ j, j ≠ i → (w.Inside j ↔ w.memory.resourceMutex = some j)) (j : ι) :
    (w.setCaller i x).Inside j ↔ (w.setCaller i x).memory.resourceMutex = some j := by
  by_cases hji : j = i
  · subst hji
    rw [World.Inside, caller_setCaller_self]
    exact hi
  · rw [inside_setCaller_of_ne w hji]
    exact hothers j hji

/-- A caller that moves outside the mutex. -/
theorem Inv.setOutside {pads : Bool} {first : ℕ → UInt8} {w : World ι} (h : Inv pads first w)
    {i : ι} (hi : ¬ w.Inside i) {x : Option (Call × Stage)} (hx : x.any (·.2.inside) = false)
    (hacc : ∀ c stage, x = some (c, stage) →
      Accounted pads first w.memory.resource w.sections i c stage) :
    Inv pads first (w.setCaller i x) where
  owner := by
    apply owner_setCaller
    · rw [hx, ← h.owner]
      exact iff_of_false Bool.false_ne_true hi
    · exact fun j _ => h.owner j
  order := h.order
  serial := h.serial
  free := h.free
  calls := forall_setCaller hacc fun j _ => h.calls j

theorem Inv.take {pads : Bool} {first : ℕ → UInt8} {w : World ι} (h : Inv pads first w)
    (i : ι) (c : Call) (hfree : w.memory.resourceMutex = none) :
    Inv pads first (World.setCaller { w with
      memory := { w.memory with resourceMutex := some i }
      lockOrder := w.lockOrder ++ [i] } i (some (c, .copy []))) where
  owner := by
    apply owner_setCaller
    · simp [Stage.inside]
    · intro j hj
      exact iff_of_false (h.not_inside_of_free hfree j) fun hown => hj (Option.some.inj hown).symm
  order := by
    have horder := h.order
    rw [hfree, Option.toList_none, List.append_nil] at horder
    simp [World.setCaller, horder]
  serial := h.serial
  free := by simp [World.setCaller]
  calls := by
    apply forall_setCaller
    · rintro _ _ ⟨⟩
      refine ⟨fun _ => ⟨moves_nil c _, ?_⟩, by simp⟩
      cases c with
      | read count => exact h.free hfree
      | write count => exact h.free hfree
    · intro j _ c' stage hj
      have hout := h.not_inside_of_free hfree j
      exact ⟨fun hin => absurd ((inside_of hj).2 hin) hout, (h.calls j c' stage hj).reported⟩

theorem Inv.work {pads : Bool} {first : ℕ → UInt8} {w : World ι} (h : Inv pads first w) {i : ι}
    {c : Call} {stage stage' : Stage} {block : ℕ → UInt8} (hi : w.caller i = some (c, stage))
    (hstage : stage.inside) (hstage' : stage'.inside)
    (hprogress : ∀ found, Progress pads c found w.memory.resource stage →
      Progress pads c found block stage') :
    Inv pads first (World.setCaller { w with
      memory := { w.memory with resource := block } } i (some (c, stage'))) := by
  have hown := (h.owner i).1 ((inside_of hi).2 hstage)
  refine ⟨?_, h.order, h.serial, fun hfree => ?_, ?_⟩
  · apply owner_setCaller
    · exact iff_of_true hstage' hown
    · exact fun j _ => h.owner j
  · exact absurd (hown.symm.trans hfree) (Option.some_ne_none i)
  · apply forall_setCaller
    · rintro _ _ ⟨⟩
      refine ⟨fun _ => hprogress _ ((h.calls i c stage hi).held hstage), ?_⟩
      rintro moved result rfl
      cases hstage'
    · intro j hj c' st hcall
      exact ⟨fun hin => absurd (h.eq_of_owner hown ((inside_of hcall).2 hin)) hj,
        (h.calls j c' st hcall).reported⟩

theorem Inv.leave {pads : Bool} {first : ℕ → UInt8} {w : World ι} (h : Inv pads first w) {i : ι}
    {c : Call} {moved : List UInt8} {result : Int64}
    (hi : w.caller i = some (c, .unlock moved result)) :
    Inv pads first (World.setCaller { w with
      memory := { w.memory with resourceMutex := none }
      sections := w.sections ++ [⟨i, c, moved, result⟩] } i (some (c, .done moved result))) := by
  have hown := (h.owner i).1 ((inside_of hi).2 rfl)
  obtain ⟨hmoves, hresult, hblock⟩ := (h.calls i c _ hi).held rfl
  have hothers : ∀ j, j ≠ i → ¬ w.Inside j := fun j hj hin => hj (h.eq_of_owner hown hin)
  refine ⟨?_, ?_, SerialObject.serial_concat.2 ⟨h.serial, hmoves, hresult⟩, fun _ => ?_, ?_⟩
  · apply owner_setCaller
    · simp [Stage.inside]
    · exact fun j hj => iff_of_false (hothers j hj) (Option.some_ne_none j).symm
  · have horder := h.order
    rw [hown] at horder
    simp [World.setCaller, horder]
  · simp only [World.setCaller, SerialObject.replay_concat]
    exact hblock
  · apply forall_setCaller
    · rintro _ _ ⟨⟩
      refine ⟨fun hin => absurd hin Bool.false_ne_true, ?_⟩
      rintro _ _ ⟨⟩
      exact List.mem_append_right _ (List.mem_singleton_self _)
    · intro j hj c' st hcall
      refine ⟨fun hin => absurd ((inside_of hcall).2 hin) (hothers j hj), ?_⟩
      intro moved' result' hdone
      exact List.mem_append_left _ ((h.calls j c' st hcall).reported moved' result' hdone)

theorem Inv.move {pads : Bool} {first : ℕ → UInt8} {w w' : World ι} (h : Inv pads first w)
    (hmove : Move pads w w') : Inv pads first w' := by
  cases hmove with
  | call i c hi =>
      apply h.setOutside
      · simp [World.Inside, hi]
      · rfl
      · rintro _ _ ⟨⟩
        exact ⟨fun hin => absurd hin Bool.false_ne_true, by simp⟩
  | take i c hi hfree => exact h.take i c hfree
  | work i c stage block stage' hi hstage hstage' hprogress =>
      exact h.work hi hstage hstage' hprogress
  | leave i c moved result hi => exact h.leave hi
  | «return» i c moved result hi =>
      apply h.setOutside
      · simp [World.Inside, hi, Stage.inside]
      · rfl
      · rintro _ _ ⟨⟩

theorem inv_exec {pads : Bool} {first : ℕ → UInt8} {schedule : List (Action ι)} {w : World ι}
    (h : Interleaving.exec (step pads) (initial first) schedule = some w) : Inv pads first w :=
  Interleaving.exec_invariant (fun _ _ _ hinv hstep => hinv.move (step_move hstep))
    (inv_initial pads first) h

/-- One caller at a time is inside, nobody else owns the mutex, the sections follow the order of
the locks, every call returns what its section did, and a read that succeeds moves what the
sections before it left. -/
theorem mutex_reads_untorn (pads : Bool) (first : ℕ → UInt8) {schedule : List (Action ι)}
    {w : World ι} (h : Interleaving.exec (step pads) (initial first) schedule = some w) :
    (∀ i j, w.Inside i → w.Inside j → i = j) ∧
      (∀ i, ¬ w.Inside i → w.memory.resourceMutex ≠ some i) ∧
      w.lockOrder = w.sections.map Section.caller ++ w.memory.resourceMutex.toList ∧
      (∀ i c moved result, w.caller i = some (c, .done moved result) →
        ⟨i, c, moved, result⟩ ∈ w.sections) ∧
      ∀ pre s post, w.sections = pre ++ s :: post → ∀ count, s.call = .read count →
        0 ≤ s.result →
        s.moved = (List.range (bound count)).map ((driver pads ι).replay first pre) := by
  have hinv := inv_exec h
  refine ⟨fun i j hi hj => ?_, fun i hi hown => hi ((hinv.owner i).2 hown), hinv.order,
    fun i c moved result hi => (hinv.calls i c _ hi).reported moved result rfl,
    fun pre s post hsections count hread hok => ?_⟩
  · exact hinv.eq_of_owner ((hinv.owner j).1 hj) hi
  · have hserial := hinv.serial
    rw [hsections] at hserial
    exact moved_of_success hserial.legal hread hok

/-- A write of two bytes with a fault before the second one, and a read that was called before
the write took the mutex. -/
def exchange : List (Action Bool) :=
  [.call true (.write 2), .call false (.read 2), .step true ⟨false, 0⟩, .step true ⟨false, 7⟩,
    .step true ⟨true, 0⟩, .step true ⟨false, 0⟩, .step true ⟨false, 0⟩, .step true ⟨false, 0⟩,
    .step true ⟨false, 0⟩, .step false ⟨false, 0⟩, .return true, .step false ⟨false, 0⟩,
    .step false ⟨false, 0⟩, .step false ⟨false, 0⟩, .step false ⟨false, 0⟩,
    .step false ⟨false, 0⟩]

theorem mutex_reads_untorn_exchange :
    ∃ w : World Bool, Interleaving.exec (step true) (initial fun _ => 9) exchange = some w ∧
      w.caller false = some (.read 2, .done [7, 0] 1024) ∧
      ⟨false, .read 2, [7, 0], 1024⟩ ∈ w.sections := by
  have hrun : (Interleaving.exec (step true) (initial fun _ => 9) exchange).any
      (fun w => w.caller false = some (.read 2, .done [7, 0] 1024)) = true := by decide +kernel
  obtain ⟨w, hexec, hcaller⟩ := Interleaving.exists_of_exec_any _ _ _ hrun
  rw [decide_eq_true_eq] at hcaller
  exact ⟨w, hexec, hcaller, (mutex_reads_untorn true _ hexec).2.2.2.1 false _ _ _ hcaller⟩

end MutexDriver
