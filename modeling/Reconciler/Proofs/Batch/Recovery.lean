import Reconciler.Proofs.Batch.Delivery
import Reconciler.Proofs.Resource.Convergence

/-! Recovering from failures. However many batches have failed to apply some entries, the next one
of which everything arrives leaves the remote documents and the entries as if it were the first, and
from then on applying them makes no difference. -/
namespace Reconciler
open DocumentServer (pathOf)

namespace Entry
variable {e e' : Entry}

theorem isSuccess_change (e : Entry) : e.change.isSuccess = true := by
  unfold change
  split <;> rfl

/-- What an entry has become once it is applied: it has the identity of its resource and is
otherwise as declared, and its document is stored where the base URL takes its path. -/
def Applied (base : String) (stored : String → Option (List UInt8)) (e e' : Entry) : Prop :=
  ∃ (k : Kind) (r : k.schema.Record), e.kind = k.tag ∧ k.writable e.state = .ok r ∧
    e' = ⟨e.kind, e.state.setId (identity k.tag (k.schema.naturalKey r))⟩ ∧
    stored (pathOf (base ++ k.path (k.schema.naturalKey r))) =
      some (Utf8.encode (k.schema.encode (k.schema.toDocument r)).pretty)

section Applied
variable {base : String} {stored : String → Option (List UInt8)}

theorem applied_declared : Applied base stored e.declared e' ↔ Applied base stored e e' := by
  simp only [Applied, state_declared, Kind.writable_clearId]
  rfl

theorem forall₂_applied_declared {es es' : List Entry} :
    List.Forall₂ (Applied base stored) (es.map declared) es' ↔
      List.Forall₂ (Applied base stored) es es' := by
  simp only [List.forall₂_map_left_iff, applied_declared]

/-- An applied entry stays as it is when it is applied once more. -/
theorem Applied.again (h : Applied base stored e e') : Applied base stored e' e' := by
  obtain ⟨k, r, hkind, hw, rfl, hstored⟩ := h
  exact ⟨k, r, hkind, (k.writable_setId ..).trans hw, rfl, hstored⟩

theorem forall₂_applied_again {es es' : List Entry}
    (h : List.Forall₂ (Applied base stored) es es') : ∀ e ∈ es', Applied base stored e e := by
  induction h with
  | nil => exact List.forall_mem_nil _
  | cons h _ ih => exact List.forall_mem_cons.2 ⟨h.again, ih⟩

/-- An entry that stays as it is has the identity and the document that it is written with. -/
theorem Applied.fixed (h : Applied base stored e e) : ∃ (k : Kind) (r : k.schema.Record),
    e.Declares k r ∧ e.state.setId (identity k.tag (k.schema.naturalKey r)) = e.state ∧
      e.change = .modified ∧
      stored (pathOf (base ++ k.path (k.schema.naturalKey r))) = some (k.payload r) := by
  obtain ⟨k, r, hkind, hw, he, hstored⟩ := h
  have hstate : e.state = e.state.setId (identity k.tag (k.schema.naturalKey r)) :=
    congrArg Entry.state he
  refine ⟨k, r, ⟨hkind, hw⟩, hstate.symm, ?_, hstored⟩
  rw [change, hstate]
  rfl

end Applied

end Entry

namespace Execution
variable {σ : Type} {x : Execution σ} {stored : σ → String → Option (List UInt8)} {w : σ}
  {m m' : Moment x.entries.length σ} {i : Fin x.entries.length}

/-- What holds along a schedule that loses nothing: the entries that have finished are applied. -/
def Landed (x : Execution σ) (stored : σ → String → Option (List UInt8))
    (m : Moment x.entries.length σ) : Prop :=
  ∀ i result, m.turns i = .finished result → ∀ (k : Kind) (r : k.schema.Record),
    (x.entry i).Declares k r →
    result = (x.entry i).after i (.ok (x.entry i).change,
      (x.entry i).state.setId (identity k.tag (k.schema.naturalKey r))) ∧
    stored m.world (pathOf (x.client.baseUrl ++ k.path (k.schema.naturalKey r))) =
      some (k.payload r)

section Applying
variable (hop : x.operation = .apply)
include hop

/-- An entry that is applied with success can be written. -/
theorem writable_of_success (hm : x.Reaches w m) {result : Entry × Outcome}
    (hi : m.turns i = .finished result) (hsuccess : result.2.result.isSuccess = true) :
    (x.entry i).Writable := by
  by_contra h
  obtain ⟨step, ⟨m₀, -, -, -, -, -, -, hstep⟩, rfl⟩ := exists_made hm hi
  obtain ⟨failure, hsettled⟩ := Entry.step_apply_of_not_writable (c := x.client) h
  rw [hop, hsettled] at hstep
  subst hstep
  cases hsuccess

theorem Landed.step (hs : Sound m) (hdistinct : (x.entries.filterMap Entry.resource?).Nodup)
    (h : x.Landed stored m) (hstep : x.Delivers stored m m') : x.Landed stored m' := by
  intro i result hi k r hd
  rcases hstep.apply hop hs hd hi with hbefore | ⟨hresult, hupdate⟩
  · obtain ⟨hafter, hstored⟩ := h i result hbefore k r hd
    refine ⟨hafter, ?_⟩
    rcases hstep.stored_eq with hsame | ⟨j, request, receive, hj, hupdate⟩
    · rw [hsame, hstored]
    · -- the request that is answered now is for another place
      obtain ⟨l, q, hdj⟩ := writable_of_asked hop hs hj
      rw [request_of_asked hop hs hdj hj] at hupdate
      rw [hupdate, Function.update_of_ne, hstored]
      intro hplace
      have hij : i = j :=
        Entry.eq_of_place? (c := x.client) hdistinct hd.place? (hplace ▸ hdj.place?)
      rw [hij, hj] at hbefore
      cases hbefore
  · refine ⟨hresult, ?_⟩
    rw [hupdate, Function.update_self]

/-- Along a schedule that loses nothing, what has finished is applied. -/
theorem landed_of_delivered (hdistinct : (x.entries.filterMap Entry.resource?).Nodup)
    (h : x.Delivered stored w m) : x.Landed stored m := by
  induction h with
  | refl => exact nofun
  | tail hbefore hstep ih =>
    exact ih.step hop (sound_of_reaches (Delivered.reaches hbefore)) hdistinct hstep

section Entries
variable {entries : List Entry} (hdistinct : (entries.filterMap Entry.resource?).Nodup)
  (hbefore : Relation.ReflTransGen Batch.Applies entries x.entries)
  (hwritable : ∀ e ∈ entries, e.Writable) (h : x.Delivered stored w m) (hstop : x.Stopped m)
include hdistinct hbefore hwritable h hstop

/-- In the end, each entry has been applied. -/
theorem finished_of_delivered (i : Fin x.entries.length) : ∃ (k : Kind) (r : k.schema.Record),
    (x.entry i).Declares k r ∧
    m.turns i = .finished ((x.entry i).after i (.ok (x.entry i).change,
      (x.entry i).state.setId (identity k.tag (k.schema.naturalKey r)))) ∧
    stored m.world (pathOf (x.client.baseUrl ++ k.path (k.schema.naturalKey r))) =
      some (k.payload r) := by
  obtain ⟨k, r, hd⟩ := (Batch.forall_iff_of_history Entry.writable_declared hbefore).2
    hwritable (x.entry i) (List.getElem_mem _)
  obtain ⟨result, hi⟩ := h.finished hstop i
  have hlanded : x.Landed stored m :=
    landed_of_delivered hop (Batch.resources_of_history hbefore ▸ hdistinct) h
  obtain ⟨rfl, hstored⟩ := hlanded i result hi k r hd
  exact ⟨k, r, hd, hi, hstored⟩

/-- A schedule that loses nothing applies all entries, as they were declared in the beginning. -/
theorem applied_of_delivered :
    List.Forall₂ (Entry.Applied x.client.baseUrl (stored m.world)) entries
      (Batch.remaining x.operation (x.slots m)) := by
  have happlied : List.Forall₂ (Entry.Applied x.client.baseUrl (stored m.world)) x.entries
      (Batch.remaining x.operation (x.slots m)) := by
    rw [remaining_slots hop, List.forall₂_iff_get]
    refine ⟨by simp, fun i hi _ => ?_⟩
    obtain ⟨k, r, hd, hfinished, hstored⟩ :=
      finished_of_delivered hop hdistinct hbefore hwritable h hstop ⟨i, hi⟩
    refine ⟨k, r, hd.kind, hd.record, ?_, hstored⟩
    simp [hfinished, Turn.slot, Entry.after, entry]
  rwa [← Entry.forall₂_applied_declared, ← Batch.declared_of_history hbefore,
    Entry.forall₂_applied_declared]

/-- Nor does it report a failure. -/
theorem isSuccess_of_delivered :
    ∀ outcome ∈ (Batch.report (x.slots m)).outcomes, outcome.result.isSuccess = true := by
  intro outcome hmem
  obtain ⟨slot, hslot, houtcome⟩ := List.mem_filterMap.1 hmem
  obtain ⟨i, rfl⟩ := List.mem_ofFn.1 hslot
  obtain ⟨k, r, -, hfinished, -⟩ :=
    finished_of_delivered hop hdistinct hbefore hwritable h hstop i
  rw [hfinished] at houtcome
  cases houtcome
  exact (x.entry i).isSuccess_change

end Entries

/-- Entries that have been applied stay as they are, and so does what is stored. -/
theorem unchanged_of_delivered
    (happlied : ∀ i, (x.entry i).Applied x.client.baseUrl (stored w) (x.entry i))
    (h : x.Delivered stored w m) : stored m.world = stored w ∧
      ∀ i result, m.turns i = .finished result →
        result = (x.entry i).after i (.ok .modified, (x.entry i).state) := by
  induction h with
  | refl => exact ⟨rfl, nofun⟩
  | tail hbefore hstep ih =>
    obtain ⟨hsame, hresults⟩ := ih
    have hs := sound_of_reaches (Delivered.reaches hbefore)
    refine ⟨?_, fun i result hi => ?_⟩
    · rcases hstep.stored_eq with hquiet | ⟨j, request, receive, hj, hupdate⟩
      · exact hquiet.trans hsame
      · obtain ⟨k, r, hd, -, -, hstored⟩ := (happlied j).fixed
        rw [request_of_asked hop hs hd hj] at hupdate
        rw [hupdate, hsame]
        exact Function.update_eq_self_iff.2 hstored.symm
    · obtain ⟨k, r, hd, hid, hchange, -⟩ := (happlied i).fixed
      rcases hstep.apply hop hs hd hi with hbefore | ⟨hresult, -⟩
      · exact hresults i result hbefore
      · rw [hresult, hid, hchange]

/-- A batch of entries that have been applied reports a change of every one. -/
theorem report_of_delivered
    (happlied : ∀ i, (x.entry i).Applied x.client.baseUrl (stored w) (x.entry i))
    (h : x.Delivered stored w m) (hstop : x.Stopped m) :
    (Batch.report (x.slots m)).outcomes.map (·.result) =
        List.replicate x.entries.length .modified ∧
      Batch.remaining x.operation (x.slots m) = x.entries := by
  have hslots : x.slots m = x.closed fun i => (.ok .modified, (x.entry i).state) := by
    refine slots_eq_closed fun i => ?_
    obtain ⟨result, hi⟩ := h.finished hstop i
    rw [hi, (unchanged_of_delivered hop happlied h).2 i result hi]
  rw [hslots]
  refine ⟨?_, ?_⟩
  · rw [outcomes_closed, List.map_map]
    exact (List.map_const' ..).trans (by rw [List.length_finRange])
  · rw [remaining_closed x _ (by rw [hop]; nofun), ← List.ofFn_eq_map]
    exact ofFn_entry

end Applying

theorem mem_outcomes {result : Entry × Outcome} (hi : m.turns i = .finished result) :
    result.2 ∈ (Batch.report (x.slots m)).outcomes := by
  refine List.mem_filterMap.2 ⟨_, List.mem_ofFn.2 ⟨i, rfl⟩, ?_⟩
  rw [hi]
  rfl

/-- Against a document server without scripts in the way, applying entries that can be written comes
to its end under every schedule, and leaves them all applied, whatever has failed before. -/
theorem ends_applied {x : Execution DocumentServer} {w : DocumentServer} {entries : List Entry}
    (hserver : x.endpoint = DocumentServer.endpoint) (hop : x.operation = .apply)
    (hdistinct : (entries.filterMap Entry.resource?).Nodup)
    (hbefore : Relation.ReflTransGen Batch.Applies entries x.entries)
    (hwritable : ∀ e ∈ entries, e.Writable)
    (hfree : ∀ e ∈ entries, ∀ p, e.place? x.client = some p → w.Unscripted p) :
    x.Ends (fun m => x.Delivered DocumentServer.stored w m ∧
      (∀ outcome ∈ (Batch.report (x.slots m)).outcomes, outcome.result.isSuccess = true) ∧
      List.Forall₂ (Entry.Applied x.client.baseUrl m.world.stored) entries
        (Batch.remaining x.operation (x.slots m))) (x.start w) := by
  have hfree' : ∀ e ∈ x.entries, ∀ p, e.place? x.client = some p → w.Unscripted p :=
    (Batch.forall_iff_of_history (fun _ => by simp [Entry.place?]) hbefore).2 hfree
  refine ends_of_leads fun m hm hstop => ?_
  obtain ⟨hdelivered, -⟩ :=
    delivered_of_reaches hserver hop (fun i => hfree' _ (List.getElem_mem i.isLt)) hm
  exact ⟨hdelivered, isSuccess_of_delivered hop hdistinct hbefore hwritable hdelivered hstop,
    applied_of_delivered hop hdistinct hbefore hwritable hdelivered hstop⟩

/-- Applying converges, whatever has failed before. Entries of different resources may have been
applied any number of times. Once they are applied with success and without loss, each has its
identity, its values are those it had in the beginning, and what is stored at its place is the
document of these values. To apply them without loss once more changes them all, and nothing. -/
theorem recovers {entries : List Entry} (hdistinct : (entries.filterMap Entry.resource?).Nodup)
    (hbefore : Relation.ReflTransGen Batch.Applies entries x.entries) (hop : x.operation = .apply)
    (h : x.Delivered stored w m) (hstop : x.Stopped m)
    (hsuccess : ∀ outcome ∈ (Batch.report (x.slots m)).outcomes, outcome.result.isSuccess = true) :
    List.Forall₂ (Entry.Applied x.client.baseUrl (stored m.world)) entries
      (Batch.remaining x.operation (x.slots m)) ∧
    ∀ (y : Execution σ) m', y.operation = .apply → y.client.baseUrl = x.client.baseUrl →
      y.entries = Batch.remaining x.operation (x.slots m) → y.Delivered stored m.world m' →
      y.Stopped m' →
      (Batch.report (y.slots m')).outcomes.map (·.result) =
        List.replicate entries.length .modified ∧
      Batch.remaining y.operation (y.slots m') = y.entries ∧
      stored m'.world = stored m.world := by
  have hwritable : ∀ e ∈ entries, e.Writable := by
    rw [← Batch.forall_iff_of_history Entry.writable_declared hbefore]
    intro e he
    obtain ⟨i, hi, rfl⟩ := List.mem_iff_getElem.1 he
    obtain ⟨result, hfinished⟩ := h.finished hstop ⟨i, hi⟩
    exact writable_of_success hop h.reaches hfinished (hsuccess _ (mem_outcomes hfinished))
  have happlied := applied_of_delivered hop hdistinct hbefore hwritable h hstop
  refine ⟨happlied, ?_⟩
  intro y m' hyop hbase hentries hy hystop
  have hagain : ∀ i, (y.entry i).Applied y.client.baseUrl (stored m.world) (y.entry i) := by
    intro i
    rw [hbase]
    exact Entry.forall₂_applied_again happlied _ (hentries ▸ List.getElem_mem _)
  obtain ⟨hresults, hkept⟩ := report_of_delivered hyop hagain hy hystop
  have hlength : y.entries.length = entries.length := by
    rw [hentries, happlied.length_eq]
  rw [hlength] at hresults
  exact ⟨hresults, hkept, (unchanged_of_delivered hyop hagain hy).1⟩

def denying : Endpoint DocumentServer where
  arrive := DocumentServer.endpoint.arrive
  answer request s := (.response ⟨500, []⟩, (DocumentServer.endpoint.answer request s).2)

theorem writable_monitored : ∀ e ∈ monitored.entries, e.Writable := by
  have hnode : Kind.node.keyed (Kind.node.bare "abc123") =
      .ok (Node.ofDocument "abc123" NodeDocument.defaults) :=
    Kind.keyed_bare (by decide) (by decide)
  refine List.forall_mem_cons.2 ⟨⟨.snmp, Snmp.monitored, rfl, Kind.writable_monitored⟩, ?_⟩
  refine List.forall_mem_singleton.2 ⟨.node, _, rfl, Kind.writable_eq_ok_iff.2 ⟨hnode, rfl⟩⟩

/-- A node and its agent were written and took that for a failure. The next batch, against an empty
server, brings both of them back, and the one after that changes them once more. -/
theorem recovers_monitored : ∃ (x y : Execution DocumentServer)
    (m : Moment x.entries.length DocumentServer) (m' : Moment y.entries.length DocumentServer),
    Relation.ReflTransGen Batch.Applies monitored.entries x.entries ∧
    List.Forall₂ (Entry.Applied "" m.world.stored) monitored.entries y.entries ∧
    (Batch.report (y.slots m')).outcomes.map (·.result) = [.modified, .modified] ∧
    m'.world.stored = m.world.stored := by
  let failing : Execution DocumentServer := { monitored with endpoint := denying }
  obtain ⟨m₀, hm₀, -, -⟩ := exists_reaches_runSlots (x := failing) (.refl _) .empty
  let x : Execution DocumentServer :=
    { monitored with entries := Batch.remaining .apply (failing.slots m₀) }
  have hbefore : Relation.ReflTransGen Batch.Applies monitored.entries x.entries :=
    .single (.intro failing rfl hm₀)
  have hdistinct : (monitored.entries.filterMap Entry.resource?).Nodup := by decide
  obtain ⟨m, hm, hstop, -⟩ := exists_reaches_runSlots (x := x) (.refl _) .empty
  obtain ⟨hdelivered, hscripts⟩ := delivered_of_reaches rfl rfl (fun _ _ _ _ => rfl) hm
  have hsuccess :=
    isSuccess_of_delivered rfl hdistinct hbefore writable_monitored hdelivered hstop
  let y : Execution DocumentServer :=
    { monitored with entries := Batch.remaining .apply (x.slots m) }
  obtain ⟨m', hm', hstop', -⟩ := exists_reaches_runSlots (x := y) (.refl _) m.world
  have hfree : ∀ i p, y.place? i = some p → m.world.Unscripted p := by
    intro _ _ _ method
    rw [hscripts]
    rfl
  obtain ⟨hdelivered', -⟩ := delivered_of_reaches rfl rfl hfree hm'
  obtain ⟨happlied, hagain⟩ := recovers hdistinct hbefore rfl hdelivered hstop hsuccess
  obtain ⟨hresults, -, hstored⟩ := hagain y m' rfl rfl rfl hdelivered' hstop'
  exact ⟨x, y, m, m', hbefore, happlied, hresults, hstored⟩

end Execution
end Reconciler
