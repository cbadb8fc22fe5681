import Reconciler.Proofs.Resource.Reading

/-! What a writing sends and what it makes of the reply. -/
namespace Reconciler.Kind

theorem writable_eq_ok_iff {k : Kind} {s : DeclaredState} {r : k.schema.Record} :
    k.writable s = .ok r ↔ k.keyed s = .ok r ∧ k.schema.missing? r = none := by
  unfold writable
  cases k.keyed s with
  | error e => simp
  | ok r' =>
    dsimp only
    cases hm : k.schema.missing? r' with
    | some field =>
      refine iff_of_false nofun ?_
      rintro ⟨h, hnone⟩
      cases h
      rw [hm] at hnone
      cases hnone
    | none =>
      constructor
      · intro h
        cases h
        exact ⟨rfl, hm⟩
      · exact fun h => h.1

theorem writable_of_missing {k : Kind} {s : DeclaredState} {r : k.schema.Record} {field : String}
    (hr : k.keyed s = .ok r) (hm : k.schema.missing? r = some field) :
    k.writable s = .error (.missingKey k field) := by
  simp only [writable, hr, hm]

theorem writable_monitored :
    snmp.writable (snmp.schema.project Snmp.monitored .empty) = .ok Snmp.monitored :=
  writable_eq_ok_iff.2 ⟨keyed_monitored, rfl⟩

@[simp] theorem writable_setId (k : Kind) (s : DeclaredState) (id : String) :
    k.writable (s.setId id) = k.writable s := by
  simp only [writable, keyed_setId]

@[simp] theorem writable_clearId (k : Kind) (s : DeclaredState) :
    k.writable s.clearId = k.writable s := by
  simp only [writable, keyed_clearId]

/-- The bytes that a record is sent as. -/
def payload (k : Kind) (r : k.schema.Record) : List UInt8 :=
  Client.payload (k.schema.encode (k.schema.toDocument r))

section Writing
variable {k : Kind} {c : Client} {outcome : ApplyResult} {s : DeclaredState}

def afterPut (k : Kind) (c : Client) (outcome : ApplyResult) (r : k.schema.Record)
    (s : DeclaredState) (reply : Reply) : Step ApplyResult :=
  match c.answered .put (k.path (k.schema.naturalKey r)) (some (k.payload r)) reply with
  | .ok _ => (.ok outcome, s.setId (identity k.tag (k.schema.naturalKey r)))
  | .error e => (.error (.api e), s)

/-- A record that is fit to be written is sent in full to the path of its key. -/
theorem write_of_writable {r : k.schema.Record} (hr : k.writable s = .ok r) :
    k.write c outcome s =
      .exchange (c.request .put (k.path (k.schema.naturalKey r)) (some (k.payload r)))
        (k.afterPut c outcome r s) := by
  unfold write
  rw [hr]
  simp only [Client.put_eq, Call.map]
  refine congrArg (Call.exchange _) (funext fun reply => ?_)
  unfold afterPut payload
  cases c.answered .put (k.path (k.schema.naturalKey r)) _ reply <;> rfl

/-- Nothing is sent of a state without such a record. -/
theorem write_of_error {e : Failure} (he : k.writable s = .error e) :
    k.write c outcome s = .settled (.error e, s) := by
  unfold write
  rw [he]

/-- Status 200 gives the state its identity. -/
theorem afterPut_stored {r : k.schema.Record} {answer : List UInt8} :
    k.afterPut c outcome r s (.response ⟨200, answer⟩) =
      (.ok outcome, s.setId (identity k.tag (k.schema.naturalKey r))) := rfl

end Writing
end Reconciler.Kind
