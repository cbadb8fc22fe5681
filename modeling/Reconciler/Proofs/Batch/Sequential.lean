import Reconciler.Proofs.Batch.Execution

/-! A batch that takes its turns one after the other, in any order of the entries, is one of the
schedules of that batch. -/
namespace Reconciler.Execution
variable {σ : Type} {x : Execution σ} {m : Moment x.entries.length σ} {i : Fin x.entries.length}

@[simp] theorem length_slots : (x.slots m).length = x.entries.length := by
  simp [slots]

theorem getElem?_slots : (x.slots m)[(i : Nat)]? = some ((m.turns i).slot (x.entry i)) := by
  simp [slots]

theorem slots_start (w : σ) : x.slots (x.start w) = x.entries.map fun e => ⟨e, none⟩ := by
  refine List.ext_getElem (by simp) ?_
  intro j _ _
  simp [slots, start, Turn.slot, entry]

theorem slots_of_finished {m' : Moment x.entries.length σ} {result : Entry × Outcome}
    (h : m'.turns = Function.update m.turns i (.finished result)) :
    x.slots m' = (x.slots m).set i ⟨result.1, some result.2⟩ := by
  refine List.ext_getElem (by simp) ?_
  intro j hj _
  rw [length_slots] at hj
  simp only [slots, List.getElem_ofFn, List.getElem_set, h]
  by_cases hij : i = ⟨j, hj⟩
  · subst hij
    simp [Turn.slot]
  · have hne : (i : Nat) ≠ j := fun h => hij (Fin.ext h)
    simp [hne, Ne.symm hij]

theorem visit_slots (hwaiting : m.turns i = .waiting) :
    Batch.visit x.endpoint.server x.client x.operation (x.slots m, m.world) i =
      let ((entry, outcome), w) := (x.call i).run x.endpoint.server m.world
      ((x.slots m).set i ⟨entry, some outcome⟩, w) := by
  simp only [Batch.visit, getElem?_slots, hwaiting]
  rfl

/-- Some schedule gives the entries at these positions their whole turns, one after the other. -/
structure Sweeps (order : List Nat) (m m' : Moment x.entries.length σ) : Prop where
  leads : x.Leads m m'
  calm : Calm m'
  phase : m'.phase = m.phase
  finished : ∀ i : Fin x.entries.length, ↑i ∈ order → ∃ result, m'.turns i = .finished result
  kept : ∀ i : Fin x.entries.length, ↑i ∉ order → m'.turns i = m.turns i
  slots : (x.slots m', m'.world) =
    order.foldl (Batch.visit x.endpoint.server x.client x.operation) (x.slots m, m.world)

theorem sweeps_nil (hcalm : Calm m) : Sweeps [] m m :=
  ⟨.refl, hcalm, rfl, by simp, by simp, rfl⟩

theorem Sweeps.append {first second : List Nat} {m₁ m₂ : Moment x.entries.length σ}
    (h₁ : Sweeps first m m₁) (h₂ : Sweeps second m₁ m₂) : Sweeps (first ++ second) m m₂ where
  leads := h₁.leads.trans h₂.leads
  calm := h₂.calm
  phase := h₂.phase.trans h₁.phase
  finished j hj := by
    by_cases hsecond : (j : Nat) ∈ second
    · exact h₂.finished j hsecond
    · rw [h₂.kept j hsecond]
      exact h₁.finished j ((List.mem_append.1 hj).resolve_right hsecond)
  kept j hj := by
    rw [List.mem_append, not_or] at hj
    rw [h₂.kept j hj.2, h₁.kept j hj.1]
  slots := by rw [h₂.slots, h₁.slots, List.foldl_append]

theorem sweeps_singleton {m' : Moment x.entries.length σ} {result : Entry × Outcome}
    (hcalm : Calm m) (hleads : x.Leads m m') (hphase : m'.phase = m.phase)
    (hturns : m'.turns = Function.update m.turns i (.finished result))
    (hvisit : (x.slots m', m'.world) =
      Batch.visit x.endpoint.server x.client x.operation (x.slots m, m.world) i) :
    Sweeps [↑i] m m' where
  leads := hleads
  calm j := by
    rw [hturns]
    by_cases hj : j = i
    · subst hj
      simp [Turn.isAsked]
    · simpa [hj] using hcalm j
  phase := hphase
  finished j hj := by
    rw [Fin.ext (List.mem_singleton.1 hj), hturns]
    exact ⟨result, Function.update_self ..⟩
  kept j hj := by
    have hne : j ≠ i := fun h => hj (List.mem_singleton.2 (congrArg Fin.val h))
    rw [hturns, Function.update_of_ne hne]
  slots := hvisit

/-- From a calm moment of its phase, an entry may have its turn. -/
theorem exists_sweeps_singleton (hcalm : Calm m) (hphase : x.phase i = m.phase)
    (hwaiting : m.turns i = .waiting) : ∃ m', Sweeps [↑i] m m' := by
  have hvisit := visit_slots hwaiting
  cases hcall : x.call i with
  | settled result =>
    have hsettle := Moves.settle hphase hwaiting hcalm.free hcall
    refine ⟨_, sweeps_singleton hcalm (.single hsettle) rfl rfl ?_⟩
    rw [hvisit, hcall, slots_of_finished rfl]
    rfl
  | exchange request receive =>
    -- The answer comes before anything else happens, so the state of the turn in between is lost.
    have hask := Moves.ask hphase hwaiting hcalm.free (fun _ => hcalm.unlocked) hcall
    have hanswer := Moves.answer (x := x) (m := { m with
      turns := Function.update m.turns i (.asked request receive)
      begun := m.begun ++ [(i, some request)]
      world := x.endpoint.arrive request m.world }) (i := i) (Function.update_self ..)
    have hturns := Function.update_idem (Turn.asked request receive)
      (Turn.finished (receive (x.endpoint.answer request (x.endpoint.arrive request m.world)).1))
      m.turns (a := i)
    refine ⟨_, sweeps_singleton hcalm (.tail (.single hask) hanswer) rfl hturns ?_⟩
    rw [hvisit, hcall, slots_of_finished hturns]
    rfl

/-- From a calm moment of their phase, entries may have their turns in any order. -/
theorem exists_sweeps {order : List Nat} (hcalm : Calm m) (hnodup : order.Nodup)
    (horder : ∀ i ∈ order, ∃ h : i < x.entries.length,
      x.phase ⟨i, h⟩ = m.phase ∧ m.turns ⟨i, h⟩ = .waiting) : ∃ m', Sweeps order m m' := by
  induction order generalizing m with
  | nil => exact ⟨m, sweeps_nil hcalm⟩
  | cons i order ih =>
    rw [List.forall_mem_cons] at horder
    obtain ⟨⟨hi, hphase, hwaiting⟩, hrest⟩ := horder
    obtain ⟨hfresh, hnodup⟩ := List.nodup_cons.1 hnodup
    obtain ⟨m₁, h₁⟩ := exists_sweeps_singleton hcalm hphase hwaiting
    have hrest₁ : ∀ j ∈ order, ∃ h : j < x.entries.length,
        x.phase ⟨j, h⟩ = m₁.phase ∧ m₁.turns ⟨j, h⟩ = .waiting := by
      intro j hj
      obtain ⟨hlt, hjphase, hjwaiting⟩ := hrest j hj
      have hne : j ∉ [i] := fun h => hfresh (List.mem_singleton.1 h ▸ hj)
      exact ⟨hlt, hjphase.trans h₁.phase.symm, (h₁.kept ⟨j, hlt⟩ hne).trans hjwaiting⟩
    obtain ⟨m', h'⟩ := ih h₁.calm hnodup hrest₁
    exact ⟨m', h₁.append h'⟩

/-- The two parts of the turns of a batch. -/
theorem exists_turns_eq {order : List Nat} (horder : order.Perm (List.range x.entries.length)) :
    ∃ first second, Batch.turns x.operation x.entries order = first ++ second ∧
      first.Nodup ∧ second.Nodup ∧
      (∀ i, i ∈ first ↔ ∃ h : i < x.entries.length, x.phase ⟨i, h⟩ = 0) ∧
      ∀ i, i ∈ second ↔ ∃ h : i < x.entries.length, x.phase ⟨i, h⟩ = 1 := by
  have hnodup : order.Nodup := horder.nodup_iff.2 List.nodup_range
  refine ⟨_, _, rfl, hnodup.filter _, hnodup.filter _, ?_, ?_⟩
  all_goals
    intro i
    rw [List.mem_filter, horder.mem_iff, List.mem_range]
    by_cases hi : i < x.entries.length
    · simp [hi, phase, entry]
    · simp [hi]

/-- Running a batch in a given order of its entries is one of its schedules, up to the end. -/
theorem exists_reaches_runSlots {order : List Nat}
    (horder : order.Perm (List.range x.entries.length)) (w : σ) :
    ∃ m, x.Reaches w m ∧ x.Stopped m ∧ (x.slots m, m.world) =
      Batch.runSlots x.endpoint.server x.client x.operation order x.entries w := by
  -- One sweep for each phase, each from a calm moment; in between only the phase changes.
  obtain ⟨first, second, hturns, hnodup₁, hnodup₂, hfirst, hsecond⟩ := exists_turns_eq horder
  obtain ⟨m₁, h₁⟩ := exists_sweeps (m := x.start w) (fun _ => rfl) hnodup₁ fun i hi =>
    have ⟨h, hphase⟩ := (hfirst i).1 hi
    ⟨h, hphase, rfl⟩
  have hadvance : x.Moves m₁ { m₁ with phase := 1 } :=
    .advance h₁.phase fun i hi => h₁.finished i ((hfirst i).2 ⟨i.isLt, hi⟩)
  have hkept : ∀ i (h : i < x.entries.length), x.phase ⟨i, h⟩ = 1 → i ∉ first := by
    intro i _ hone hi
    obtain ⟨_, hzero⟩ := (hfirst i).1 hi
    rw [hone] at hzero
    cases hzero
  obtain ⟨m₂, h₂⟩ := exists_sweeps (m := { m₁ with phase := 1 }) h₁.calm hnodup₂ fun i hi =>
    have ⟨h, hphase⟩ := (hsecond i).1 hi
    ⟨h, hphase, h₁.kept ⟨i, h⟩ (hkept i h hphase)⟩
  refine ⟨m₂, (h₁.leads.tail hadvance).trans h₂.leads, stopped_of_finished h₂.phase ?_, ?_⟩
  · intro i
    by_cases hi : (i : Nat) ∈ second
    · exact h₂.finished i hi
    · have hzero : x.phase i = 0 := by
        have hle := x.phase_le_one i
        have hne : x.phase i ≠ 1 := fun h => hi ((hsecond i).2 ⟨i.isLt, h⟩)
        omega
      rw [h₂.kept i hi]
      exact h₁.finished i ((hfirst i).2 ⟨i.isLt, hzero⟩)
  · rw [Batch.runSlots, hturns, List.foldl_append, ← slots_start w]
    exact h₂.slots.trans (congrArg (List.foldl _ · second) h₁.slots)

/-- What holds at the end of every schedule holds when the turns are taken in a given order. -/
theorem Ends.runSlots {P : Moment x.entries.length σ → Prop} {w : σ} (h : x.Ends P (x.start w))
    {order : List Nat} (horder : order.Perm (List.range x.entries.length)) :
    ∃ m, P m ∧ (x.slots m, m.world) =
      Batch.runSlots x.endpoint.server x.client x.operation order x.entries w := by
  obtain ⟨m, hm, hstop, hslots⟩ := exists_reaches_runSlots horder w
  exact ⟨m, h.of_leads hm hstop, hslots⟩

end Reconciler.Execution
