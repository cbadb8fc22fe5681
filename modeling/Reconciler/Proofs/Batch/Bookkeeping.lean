import Mathlib.Data.List.OfFn
import Reconciler.Proofs.Batch.Entry
import Reconciler.Proofs.Batch.Execution

/-! What a batch reports. Under every schedule there is one outcome for each entry, that of its own
step, and the counts and the entries that remain agree with the outcomes. -/
namespace Reconciler

structure Summary.Counts (s : Summary) (results : List ApplyResult) : Prop where
  created : s.created = results.count .created
  modified : s.modified = results.count .modified
  removed : s.removed = results.count .removed
  noChange : s.noChange = results.count .noChange
  failed : s.failed = results.countP fun r => !r.isSuccess
  total : s.total = results.length
  totalChanges : s.totalChanges = results.countP (·.isChange)
  isSuccess : s.isSuccess = true ↔ ∀ error, .failed error ∉ results

namespace Summary

/-- A figure that grows by one with the results of a kind counts them. -/
theorem figure_ofResults {f : Summary → Nat} {p : ApplyResult → Bool}
    (hempty : f empty = 0)
    (hadd : ∀ s r, f (s.add r) = f s + if p r = true then 1 else 0)
    (results : List ApplyResult) : f (ofResults results) = results.countP p := by
  have hfoldl : ∀ s, f (results.foldl add s) = f s + results.countP p := by
    induction results with
    | nil => exact fun s => rfl
    | cons r results ih =>
      intro s
      rw [List.foldl_cons, ih, hadd, List.countP_cons]
      omega
  rw [ofResults, hfoldl, hempty, Nat.zero_add]

/-- A batch is a success just if no entry failed. -/
theorem isSuccess_iff {s : Summary} {results : List ApplyResult}
    (hfailed : s.failed = results.countP fun r => !r.isSuccess) :
    s.isSuccess = true ↔ ∀ error, .failed error ∉ results := by
  rw [isSuccess, hfailed, beq_iff_eq, List.countP_eq_zero]
  constructor
  · intro hall error hmem
    exact hall _ hmem rfl
  · intro hnone result hmem hfailed
    cases result with
    | failed error => exact hnone error hmem
    | _ => cases hfailed

/-- A summary agrees with the results that it sums up. -/
theorem counts_ofResults (results : List ApplyResult) : (ofResults results).Counts results := by
  have hfailed := figure_ofResults (f := failed) (p := fun r => !r.isSuccess) rfl
    (fun _ r => by cases r <;> rfl) results
  exact {
    created := figure_ofResults rfl (fun _ r => by cases r <;> rfl) results
    modified := figure_ofResults rfl (fun _ r => by cases r <;> rfl) results
    removed := figure_ofResults rfl (fun _ r => by cases r <;> rfl) results
    noChange := figure_ofResults rfl (fun _ r => by cases r <;> rfl) results
    failed := hfailed
    total := by
      refine (figure_ofResults (p := fun _ => true) rfl ?_ results).trans
        (congrFun List.countP_true results)
      intro s r
      cases r <;> simp [Summary.total, add] <;> omega
    totalChanges := by
      refine figure_ofResults rfl ?_ results
      intro s r
      cases r <;> simp [Summary.totalChanges, add, ApplyResult.isChange] <;> omega
    isSuccess := isSuccess_iff hfailed }

end Summary

def Endpoint.answering {σ : Type} (e : Endpoint σ) : Server σ := ⟨e.answer⟩

def Slot.isGone (slot : Slot) : Bool := slot.outcome.any (·.result = .removed)

namespace Batch

theorem dropMarked_map {α β : Type} (gone : α → Bool) (f : α → β) (items : List α) :
    dropMarked (items.map gone) (items.map f) = (items.filter fun a => !gone a).map f := by
  induction items with
  | nil => rfl
  | cons a items ih => cases h : gone a <;> simp [dropMarked, h, ih]

/-- Where no outcome is missing, a refresh drops each entry by its own. -/
theorem remaining_refresh {slots : List Slot} (h : ∀ slot ∈ slots, slot.outcome.isSome = true) :
    remaining .refresh slots = (slots.filter fun slot => !slot.isGone).map (·.entry) := by
  have hmarks : ((outcomes slots).map fun o => decide (o.result = .removed)) =
      slots.map Slot.isGone := by
    induction slots with
    | nil => rfl
    | cons slot slots ih =>
      rw [List.forall_mem_cons] at h
      obtain ⟨outcome, houtcome⟩ := Option.isSome_iff_exists.1 h.1
      have hrest := ih h.2
      simp only [outcomes] at hrest ⊢
      simp [houtcome, Slot.isGone, hrest]
  rw [remaining, hmarks, dropMarked_map]

end Batch

namespace Execution
variable {σ : Type} {x : Execution σ} {w : σ} {m m' : Moment x.entries.length σ}
  {i : Fin x.entries.length}

/-- A turn that has just finished came to what the answer at that moment makes of it. -/
theorem finished_of_moves (hs : Sound m) (h : x.Moves m m') {result : Entry × Outcome}
    (hi : m'.turns i = .finished result) : m.turns i = .finished result ∨
      (∀ before, m.turns i ≠ .finished before) ∧
        result = ((x.call i).run x.endpoint.answering m.world).1 := by
  cases h with
  | @settle j settled _ hwaiting _ hcall =>
    by_cases hj : i = j
    · subst hj
      simp only [Function.update_self, Turn.finished.injEq] at hi
      exact .inr ⟨by simp [hwaiting], by rw [hcall, ← hi]; rfl⟩
    · exact .inl (by simpa [hj] using hi)
  | @ask j _ _ =>
    by_cases hj : i = j
    · subst hj
      simp at hi
    · exact .inl (by simpa [hj] using hi)
  | @answer j request receive hasked =>
    by_cases hj : i = j
    · subst hj
      simp only [Function.update_self, Turn.finished.injEq] at hi
      exact .inr ⟨by simp [hasked], by rw [hs.asked _ _ _ hasked, ← hi]; rfl⟩
    · exact .inl (by simpa [hj] using hi)
  | advance => exact .inl hi

/-- In a schedule that leads to `m`, the turn of an entry was finished by this step, taken with the
answer of that moment. -/
def Made (x : Execution σ) (w : σ) (m : Moment x.entries.length σ) (i : Fin x.entries.length)
    (step : Step ApplyResult) : Prop :=
  ∃ m₀ m₁, x.Reaches w m₀ ∧ x.Moves m₀ m₁ ∧ x.Leads m₁ m ∧
    (∀ result, m₀.turns i ≠ .finished result) ∧
    m₁.turns i = .finished ((x.entry i).after i step) ∧
    step = (((x.entry i).step x.client x.operation).run x.endpoint.answering m₀.world).1

/-- A finished turn has made one step of its entry. -/
theorem exists_made (h : x.Reaches w m) {result : Entry × Outcome}
    (hi : m.turns i = .finished result) :
    ∃ step, x.Made w m i step ∧ result = (x.entry i).after i step := by
  induction h with
  | refl => cases hi
  | @tail m₀ m₁ hreaches hstep ih =>
    rcases finished_of_moves (sound_of_reaches hreaches) hstep hi with hbefore | ⟨hnew, hresult⟩
    · obtain ⟨step, ⟨n₀, n₁, hn₀, hn, hleads, hmade⟩, hresult⟩ := ih hbefore
      exact ⟨step, ⟨n₀, n₁, hn₀, hn, hleads.tail hstep, hmade⟩, hresult⟩
    · rw [call, Entry.run_eq, Call.run_map] at hresult
      exact ⟨_, ⟨m₀, m₁, hreaches, hstep, .refl, hnew, hi.trans (congrArg _ hresult), rfl⟩, hresult⟩

/-- Entries that fail are left as they were. -/
theorem Made.honest {step : Step ApplyResult} (h : x.Made w m i step) :
    step.Honest (x.entry i).state := by
  obtain ⟨_, _, -, -, -, -, -, rfl⟩ := h
  exact Entry.step_honest.run ..

/-- Every entry has had its turn. -/
def isOver (x : Execution σ) (m : Moment x.entries.length σ) : Bool :=
  (x.slots m).all (·.outcome.isSome)

/-- At the end of a run no outcome is missing. -/
theorem isOver_of_stopped (hm : x.Reaches w m) (hstop : x.Stopped m) : x.isOver m = true := by
  rw [isOver, List.all_eq_true]
  intro slot hslot
  obtain ⟨i, rfl⟩ := List.mem_ofFn.1 hslot
  obtain ⟨result, hi⟩ := ((sound_of_reaches hm).finished_of_stopped hstop).2 i
  rw [hi]
  rfl

def closed (x : Execution σ) (own : Fin x.entries.length → Step ApplyResult) : List Slot :=
  (List.finRange x.entries.length).map fun i =>
    ⟨((x.entry i).after i (own i)).1, some ((x.entry i).after i (own i)).2⟩

theorem slots_eq_closed {own : Fin x.entries.length → Step ApplyResult}
    (h : ∀ i, m.turns i = .finished ((x.entry i).after i (own i))) :
    x.slots m = x.closed own := by
  simp only [slots, h, closed, List.ofFn_eq_map]
  rfl

section Closed
variable (x) (own : Fin x.entries.length → Step ApplyResult)

theorem outcomes_closed : (Batch.report (x.closed own)).outcomes =
    (List.finRange x.entries.length).map fun i => ((x.entry i).after i (own i)).2 := by
  simp only [Batch.report, Batch.outcomes, closed, List.filterMap_map]
  rw [← List.filterMap_eq_map]
  rfl

theorem summary_closed : (Batch.report (x.closed own)).summary.Counts
    ((Batch.report (x.closed own)).outcomes.map (·.result)) :=
  Summary.counts_ofResults _

theorem remaining_closed (hop : x.operation ≠ .refresh) :
    Batch.remaining x.operation (x.closed own) =
      (List.finRange x.entries.length).map fun i => ⟨(x.entry i).kind, (own i).2⟩ := by
  unfold Batch.remaining
  cases hx : x.operation with
  | refresh => exact absurd hx hop
  | apply | destroy => simp [closed, Entry.after]

theorem remaining_closed_refresh (hop : x.operation = .refresh) :
    Batch.remaining x.operation (x.closed own) =
      ((List.finRange x.entries.length).filter fun i =>
        Entry.reported (own i).1 ≠ .removed).map fun i => ⟨(x.entry i).kind, (own i).2⟩ := by
  have hsome : ∀ slot ∈ x.closed own, slot.outcome.isSome = true :=
    List.forall_mem_map.2 fun _ _ => rfl
  rw [hop, Batch.remaining_refresh hsome]
  simp [closed, Slot.isGone, List.filter_map, Entry.after, Function.comp_def]

end Closed

/-- The books of a batch in which entry `i` made the step `own i`. -/
structure Accounts (x : Execution σ) (own : Fin x.entries.length → Step ApplyResult)
    (slots : List Slot) : Prop where
  outcomes : (Batch.report slots).outcomes = (List.finRange x.entries.length).map fun i =>
    { kind := (x.entry i).kind
      label := ((own i).2.id <|> (x.entry i).state.id).getD s!"{(x.entry i).kind} #{i}"
      result := Entry.reported (own i).1 }
  summary : (Batch.report slots).summary.Counts ((Batch.report slots).outcomes.map (·.result))
  total : (Batch.report slots).summary.total = x.entries.length
  failed : ∀ i error, Entry.reported (own i).1 = .failed error → (own i).2 = (x.entry i).state
  remaining : x.operation ≠ .refresh → Batch.remaining x.operation slots =
    (List.finRange x.entries.length).map fun i => ⟨(x.entry i).kind, (own i).2⟩
  refreshed : x.operation = .refresh → Batch.remaining x.operation slots =
    ((List.finRange x.entries.length).filter fun i =>
      Entry.reported (own i).1 ≠ .removed).map fun i => ⟨(x.entry i).kind, (own i).2⟩

theorem accounts_closed {own : Fin x.entries.length → Step ApplyResult}
    (h : ∀ i, (own i).Honest (x.entry i).state) : x.Accounts own (x.closed own) where
  outcomes := outcomes_closed x own
  summary := summary_closed x own
  total := by
    rw [(summary_closed x own).total, outcomes_closed]
    simp
  failed i error hi := by
    cases hstep : (own i).1 with
    | error failure => exact (h i).keeps failure hstep
    | ok result =>
      have hsuccess := (h i).succeeds result hstep
      rw [hstep] at hi
      rw [show result = .failed error from hi] at hsuccess
      cases hsuccess
  remaining := remaining_closed x own
  refreshed := remaining_closed_refresh x own

/-- Under every schedule the books are exact: there is one outcome for each entry, in their order
and with the result of its own step; the summary counts them; a failure changes nothing; and a
refresh drops the entries that it found gone and no others. -/
theorem books_exact (x : Execution σ) (w : σ) : x.Ends (fun m =>
    ∃ own, (∀ i, x.Made w m i (own i)) ∧ x.Accounts own (x.slots m)) (x.start w) := by
  refine ends_of_leads fun m hm hstop => ?_
  choose result hfinished using ((sound_of_reaches hm).finished_of_stopped hstop).2
  choose own hmade hresult using fun i => exists_made hm (hfinished i)
  refine ⟨own, hmade, ?_⟩
  rw [slots_eq_closed fun i => (hfinished i).trans (congrArg _ (hresult i))]
  exact accounts_closed fun i => (hmade i).honest

end Execution
end Reconciler
