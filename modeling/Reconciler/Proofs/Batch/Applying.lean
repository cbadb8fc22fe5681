import Reconciler.Proofs.Batch.Bookkeeping
import Reconciler.Proofs.Resource.Rewriting

/-! Applying entries. An entry that declares a record fit to be written sends its document, any
other fails, and nothing changes of an entry but its identity. -/
namespace Reconciler

namespace Kind
variable {k : Kind}

theorem tag_of_find {tag : String} (h : find tag = .ok k) : k.tag = tag := by
  unfold find ofTag? at h
  cases hk : all.find? fun k => k.tag == tag with
  | none =>
    rw [hk] at h
    cases h
  | some l =>
    rw [hk] at h
    cases h
    simpa using List.find?_some hk

theorem ofTag?_of_find {tag : String} (h : find tag = .ok k) : ofTag? tag = some k := by
  unfold find at h
  cases hk : ofTag? tag with
  | none =>
    rw [hk] at h
    cases h
  | some l =>
    rw [hk] at h
    cases h
    rfl

/-- Writing changes no value of a state. -/
theorem write_keepsValues {c : Client} {outcome : ApplyResult} {s : DeclaredState} :
    (k.write c outcome s).Ensures fun step => step.2.values = s.values := by
  unfold write
  cases k.writable s with
  | error e => rfl
  | ok record =>
    refine Call.ensures_map.2 (Call.ensures_of_forall fun result => ?_)
    cases result <;> rfl

end Kind

namespace Entry
variable {e : Entry} {c : Client} {index : Nat} {k : Kind} {r : k.schema.Record}

/-- What is declared of an entry, without the identity it may have. -/
def declared (e : Entry) : Entry := ⟨e.kind, e.state.clearId⟩

@[simp] theorem state_declared : e.declared.state = e.state.clearId := rfl

@[simp] theorem resource?_declared : e.declared.resource? = e.resource? := by
  simp only [resource?, declared, Kind.keyed_clearId]

/-- The kind of an entry is known, and its state yields a record fit to be written. -/
structure Declares (e : Entry) (k : Kind) (r : k.schema.Record) : Prop where
  kind : e.kind = k.tag
  record : k.writable e.state = .ok r

def Writable (e : Entry) : Prop := ∃ (k : Kind) (r : k.schema.Record), e.Declares k r

theorem writable_declared (e : Entry) : e.declared.Writable ↔ e.Writable := by
  have hwritable (k : Kind) : k.writable e.declared.state = k.writable e.state := by simp
  constructor
  · exact fun ⟨k, r, h⟩ => ⟨k, r, h.kind, (hwritable k).symm.trans h.record⟩
  · exact fun ⟨k, r, h⟩ => ⟨k, r, h.kind, (hwritable k).trans h.record⟩

theorem Declares.resource? (h : e.Declares k r) :
    e.resource? = some (k, k.schema.naturalKey r) := by
  refine resource?_of_keyed ?_ (Kind.writable_eq_ok_iff.1 h.record).1
  rw [h.kind]
  cases k <;> rfl

def change (e : Entry) : ApplyResult := if e.state.hasId then .modified else .created

theorem step_apply (hk : e.kind = k.tag) : e.step c .apply = k.write c e.change e.state := by
  unfold step change
  rw [hk, Kind.find_tag]
  cases e.state.hasId <;> rfl

theorem step_apply_keepsValues :
    (e.step c .apply).Ensures fun step => step.2.values = e.state.values := by
  cases hk : Kind.find e.kind with
  | error failure =>
    unfold step
    rw [hk]
    rfl
  | ok k =>
    rw [step_apply (Kind.tag_of_find hk).symm]
    exact Kind.write_keepsValues

/-- An entry is applied by storing its document, with one request. -/
theorem run_apply (h : e.Declares k r) : e.run c .apply index =
    .exchange (c.request .put (k.path (k.schema.naturalKey r)) (some (k.payload r)))
      fun reply => e.after index (k.afterPut c e.change r e.state reply) := by
  rw [run_eq, step_apply h.kind, Kind.write_of_writable h.record]
  rfl

/-- An entry that cannot be written never gets as far as a request. -/
theorem step_apply_of_not_writable (h : ¬e.Writable) :
    ∃ failure, e.step c .apply = .settled (.error failure, e.state) := by
  cases hk : Kind.find e.kind with
  | error failure =>
    refine ⟨failure, ?_⟩
    unfold step
    rw [hk]
  | ok k =>
    have hkind := (Kind.tag_of_find hk).symm
    cases hw : k.writable e.state with
    | error failure => exact ⟨failure, by rw [step_apply hkind, Kind.write_of_error hw]⟩
    | ok r => exact absurd ⟨k, r, hkind, hw⟩ h

/-- A refresh is over without a request where it fails at once or there is nothing to look for. If
not, it asks for the resource of the entry. -/
theorem step_refresh_cases (e : Entry) (c : Client) :
    (∃ result, e.step c .refresh = .settled (result, e.state) ∧
      ∀ x, result = .ok x → x = .noChange) ∨
    ∃ (k : Kind) (r : k.schema.Record), Kind.find e.kind = .ok k ∧ k.keyed e.state = .ok r ∧
      e.step c .refresh = .exchange (c.request .get (k.path (k.schema.naturalKey r)) none)
        fun reply => afterReading e.state (k.afterGet c (k.schema.naturalKey r) e.state reply) := by
  cases hk : Kind.find e.kind with
  | error failure => exact .inl ⟨_, step_of_unknown hk, nofun⟩
  | ok k =>
    cases hid : e.state.hasId with
    | false =>
      have hidle := step_of_idle (c := c) hk hid (by decide : Operation.refresh ≠ .apply)
      exact .inl ⟨_, hidle, fun x hx => (Except.ok.inj hx).symm⟩
    | true =>
      rw [step_refresh hk hid, refresh_eq]
      cases hr : k.keyed e.state with
      | error failure =>
        rw [Kind.read_of_error hr]
        exact .inl ⟨_, rfl, nofun⟩
      | ok r =>
        rw [Kind.read_of_keyed hr]
        exact .inr ⟨k, r, rfl, hr, rfl⟩

end Entry

/-- A batch applies some entries and leaves these. Any client may have run it against any server,
under any schedule and whether or not it got to its end. -/
inductive Batch.Applies : List Entry → List Entry → Prop
  | intro {σ : Type} (x : Execution σ) {w : σ} {m : Moment x.entries.length σ}
      (hop : x.operation = .apply) (hm : x.Reaches w m) :
      Applies x.entries (Batch.remaining x.operation (x.slots m))

namespace Execution
variable {σ : Type} {x : Execution σ} {w : σ} {m : Moment x.entries.length σ}

theorem remaining_slots (hop : x.operation = .apply) : Batch.remaining x.operation (x.slots m) =
    List.ofFn fun i => ((m.turns i).slot (x.entry i)).entry := by
  rw [hop]
  exact List.map_ofFn ..

theorem ofFn_entry : List.ofFn x.entry = x.entries := List.ofFn_getElem ..

theorem map_entry : (List.finRange x.entries.length).map x.entry = x.entries := by
  rw [← List.ofFn_eq_map, ofFn_entry]

/-- At every moment the entries have what was declared of them. -/
theorem declared_slot (hop : x.operation = .apply) (hm : x.Reaches w m)
    (i : Fin x.entries.length) :
    ((m.turns i).slot (x.entry i)).entry.declared = (x.entry i).declared := by
  cases hi : m.turns i with
  | waiting | asked => rfl
  | finished result =>
    obtain ⟨step, ⟨m₀, -, -, -, -, -, -, hstep⟩, rfl⟩ := exists_made hm hi
    rw [hop] at hstep
    have hvalues : step.2.values = (x.entry i).state.values := by
      rw [hstep]
      exact Entry.step_apply_keepsValues.run ..
    simp [Turn.slot, Entry.after, Entry.declared, DeclaredState.clearId, hvalues]

end Execution

namespace Batch
variable {entries entries' : List Entry}

/-- Applying changes nothing that is declared. -/
theorem Applies.declared (h : Applies entries entries') :
    entries'.map Entry.declared = entries.map Entry.declared := by
  obtain ⟨x, hop, hm⟩ := h
  rw [Execution.remaining_slots hop, List.map_ofFn]
  conv_rhs => rw [← Execution.ofFn_entry (x := x), List.map_ofFn]
  exact congrArg List.ofFn (funext fun i => Execution.declared_slot hop hm i)

/-- However often entries are applied, what is declared of them stays the same. -/
theorem declared_of_history (h : Relation.ReflTransGen Applies entries entries') :
    entries'.map Entry.declared = entries.map Entry.declared := by
  induction h with
  | refl => rfl
  | tail _ hstep ih => exact hstep.declared.trans ih

/-- So does all that depends on no more than that. -/
theorem forall_iff_of_history {P : Entry → Prop} (hP : ∀ e, P e.declared ↔ P e)
    (h : Relation.ReflTransGen Applies entries entries') :
    (∀ e ∈ entries', P e) ↔ ∀ e ∈ entries, P e := by
  have hdeclared : ∀ es : List Entry, (∀ e ∈ es.map Entry.declared, P e) ↔ ∀ e ∈ es, P e := by
    intro es
    simp only [List.forall_mem_map, hP]
  rw [← hdeclared, declared_of_history h, hdeclared]

theorem resources_of_history (h : Relation.ReflTransGen Applies entries entries') :
    entries'.filterMap Entry.resource? = entries.filterMap Entry.resource? := by
  have hdeclared : ∀ es : List Entry, es.filterMap Entry.resource? =
      (es.map Entry.declared).filterMap Entry.resource? := fun es => by
    simp only [List.filterMap_map, Function.comp_def, Entry.resource?_declared]
  rw [hdeclared, declared_of_history h, ← hdeclared]

end Batch
end Reconciler
