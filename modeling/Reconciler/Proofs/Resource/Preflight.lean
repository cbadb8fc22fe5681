import Reconciler.Proofs.Resource.Operations
import Reconciler.Proofs.Resource.Removal

/-! When an operation asks the server at all, and the one request that it sends then. -/
namespace Reconciler

namespace Kind
variable {k : Kind} {s : DeclaredState}

inductive Unkeyed (k : Kind) (s : DeclaredState) : Prop
  | mismatch {e : TypeMismatch} (h : k.schema.materialize s = .error e)
  | missing {r : k.schema.Record} (h : k.schema.materialize s = .ok r)
    (hkey : k.schema.naturalKey r = "")
  | invalid {r : k.schema.Record} (h : k.schema.materialize s = .ok r)
    (hkey : isPathSegment (k.schema.naturalKey r) = false)

theorem unkeyed_iff : k.Unkeyed s ↔ ∃ e, k.keyed s = .error e := by
  cases hkeyed : k.keyed s with
  | ok r =>
    obtain ⟨hr, hne, hseg⟩ := keyed_eq_ok_iff.1 hkeyed
    refine iff_of_false ?_ nofun
    rintro (he | ⟨hr', hempty⟩ | ⟨hr', hbad⟩)
    · cases hr.symm.trans he
    · cases hr.symm.trans hr'
      exact hne hempty
    · cases hr.symm.trans hr'
      cases hseg.symm.trans hbad
  | error e =>
    refine iff_of_true ?_ ⟨e, rfl⟩
    cases hr : k.schema.materialize s with
    | error e => exact .mismatch hr
    | ok r =>
      by_cases hempty : k.schema.naturalKey r = ""
      · exact .missing hr hempty
      · refine .invalid hr (Bool.eq_false_iff.2 fun hseg => ?_)
        rw [keyed_eq_ok_iff.2 ⟨hr, hempty, hseg⟩] at hkeyed
        cases hkeyed

end Kind

namespace Op
variable {k : Kind} {c : Client} {s : DeclaredState}

/-- What keeps an operation from asking the server: no natural key, for a writing also a field that
the others need, for an adoption also an identity of another kind. -/
def Refused (k : Kind) (s : DeclaredState) : Op → Prop
  | .create | .update =>
    k.Unkeyed s ∨ ∃ r field, k.schema.materialize s = .ok r ∧ k.schema.missing? r = some field
  | .read | .delete => k.Unkeyed s
  | .adopt id => parseIdentity? k.tag id = none ∨
    ∃ key, parseIdentity? k.tag id = some key ∧ k.Unkeyed (s.set k.naturalKey (.string key))

def asked (k : Kind) (r : k.schema.Record) : Op → Method × Option Json
  | .create | .update => (.put, some (k.schema.encode (k.schema.toDocument r)))
  | .read | .adopt _ => (.get, none)
  | .delete =>
    match k.deletePolicy with
    | .remote => (.delete, none)
    | .reset => (.put, some (k.schema.encode k.schema.defaults))

def request (k : Kind) (c : Client) (r : k.schema.Record) (op : Op) : Request :=
  c.request (op.asked k r).1 (k.path (k.schema.naturalKey r))
    ((op.asked k r).2.map Client.payload)

/-- Either an operation is refused and sends nothing, or it is not and sends its request. -/
def Gated (k : Kind) (c : Client) (s : DeclaredState) (op : Op) : Prop :=
  op.Refused k s ∧ (op.call k c s).request? = none ∨
    ¬op.Refused k s ∧ ∃ r, k.keyed (op.subject k s) = .ok r ∧
      (op.call k c s).request? = some (op.request k c r)

private theorem refused_write_iff :
    (k.Unkeyed s ∨ ∃ r field, k.schema.materialize s = .ok r ∧ k.schema.missing? r = some field) ↔
      ∃ e, k.writable s = .error e := by
  rw [Kind.unkeyed_iff]
  cases hkeyed : k.keyed s with
  | error e => exact iff_of_true (.inl ⟨e, rfl⟩) ⟨e, by simp only [Kind.writable, hkeyed]⟩
  | ok r =>
    have hr := (Kind.keyed_eq_ok_iff.1 hkeyed).1
    cases hmissing : k.schema.missing? r with
    | some field =>
      exact iff_of_true (.inr ⟨r, field, hr, hmissing⟩)
        ⟨_, Kind.writable_of_missing hkeyed hmissing⟩
    | none =>
      refine iff_of_false ?_ ?_
      · rintro (⟨e, he⟩ | ⟨r', field, hr', hfield⟩)
        · cases he
        · cases hr.symm.trans hr'
          cases hmissing.symm.trans hfield
      · rintro ⟨e, he⟩
        rw [Kind.writable_eq_ok_iff.2 ⟨hkeyed, hmissing⟩] at he
        cases he

private theorem gated_write {op : Op} {outcome : ApplyResult}
    (hrefused : op.Refused k s ↔ ∃ e, k.writable s = .error e)
    (hcall : (op.call k c s).request? = (k.write c outcome s).request?)
    (hasked : ∀ r, op.request k c r =
      c.request .put (k.path (k.schema.naturalKey r)) (some (k.payload r)))
    (hsubject : op.subject k s = s) : op.Gated k c s := by
  rw [Gated, hrefused, hcall, hsubject]
  cases hw : k.writable s with
  | error e => exact .inl ⟨⟨e, rfl⟩, by rw [Kind.write_of_error hw, Call.request?]⟩
  | ok r =>
    refine .inr ⟨?_, r, (Kind.writable_eq_ok_iff.1 hw).1, ?_⟩
    · rintro ⟨e, he⟩
      cases he
    · rw [Kind.write_of_writable hw, Call.request?, hasked]

private theorem gated_read : read.Gated k c s := by
  have hcall : (read.call k c s).request? = (k.read c s).request? := Call.request?_map ..
  rw [Gated, hcall, Refused, Kind.unkeyed_iff]
  cases hkeyed : k.keyed s with
  | error e => exact .inl ⟨⟨e, rfl⟩, by rw [Kind.read_of_error hkeyed, Call.request?]⟩
  | ok r =>
    refine .inr ⟨?_, r, hkeyed, ?_⟩
    · rintro ⟨e, he⟩
      cases he
    · rw [Kind.read_of_keyed hkeyed]
      rfl

private theorem gated_delete : delete.Gated k c s := by
  have hcall : (delete.call k c s).request? = (k.delete c s).request? := Call.request?_map ..
  rw [Gated, hcall, Refused, Kind.unkeyed_iff]
  cases hkeyed : k.keyed s with
  | error e => exact .inl ⟨⟨e, rfl⟩, by unfold Kind.delete; rw [hkeyed]; rfl⟩
  | ok r =>
    refine .inr ⟨?_, r, hkeyed, ?_⟩
    · rintro ⟨e, he⟩
      cases he
    · rw [Kind.delete_of_keyed hkeyed, Call.request?]
      unfold request asked Kind.removal
      cases k.deletePolicy <;> rfl

theorem gated (op : Op) : op.Gated k c s := by
  cases op with
  | create => exact gated_write refused_write_iff (Call.request?_map ..) (fun _ => rfl) rfl
  | update => exact gated_write refused_write_iff (Call.request?_map ..) (fun _ => rfl) rfl
  | read => exact gated_read
  | delete => exact gated_delete
  | adopt id =>
    cases hid : parseIdentity? k.tag id with
    | none => exact .inl ⟨.inl hid, by rw [call_adopt_of_none hid, Call.request?]⟩
    | some key =>
      -- what is left of an adoption is a reading of the state with the parsed key
      have hrefused : (adopt id).Refused k s ↔ read.Refused k ((adopt id).subject k s) := by
        simp only [Refused, subject_adopt_of_some hid, hid, reduceCtorEq, false_or,
          Option.some.injEq, exists_eq_left']
      rw [Gated, hrefused, call_adopt_of_some hid]
      exact gated_read

/-- The natural key that an adoption asks for is the one in the identity. -/
theorem naturalKey_of_adopt {id : String} {r : k.schema.Record}
    (hr : k.keyed ((adopt id).subject k s) = .ok r) (h : ¬(adopt id).Refused k s) :
    parseIdentity? k.tag id = some (k.schema.naturalKey r) := by
  cases hid : parseIdentity? k.tag id with
  | none => exact absurd (.inl hid) h
  | some key =>
    rw [subject_adopt_of_some hid] at hr
    have hget := Kind.get?_naturalKey_of_keyed hr
    rw [DeclaredState.get?_set, if_pos rfl] at hget
    cases hget
    rfl

/-- An operation asks the server for nothing exactly when it is refused. Otherwise it sends one
request to the place of the resource: the whole document to write it, nothing to read it, and to
remove it nothing or its defaults. -/
theorem sends_exactly (k : Kind) (c : Client) (s : DeclaredState) (op : Op) {σ : Type}
    (server : Server σ) (w : σ) :
    ((op.call k c s).sent server w = [] ↔ op.Refused k s) ∧
    (¬op.Refused k s ↔ ∃ r, k.schema.materialize (op.subject k s) = .ok r ∧
      (∀ id, op = adopt id → parseIdentity? k.tag id = some (k.schema.naturalKey r)) ∧
      (op.call k c s).sent server w = [{
        method := (op.asked k r).1
        url := c.baseUrl ++ k.path (k.schema.naturalKey r)
        headers := [("Authorization", c.credentials.authorization),
          ("Accept", "application/json")] ++
            if (op.asked k r).2.isSome then [("Content-Type", "application/json")] else []
        body := (op.asked k r).2.map fun document => Utf8.encode document.pretty }]) := by
  rw [Call.sent_eq]
  rcases gated (k := k) (c := c) (s := s) op with ⟨hrefused, hnone⟩ | ⟨hpassed, r, hr, hsome⟩
  · rw [hnone]
    refine ⟨iff_of_true rfl hrefused, iff_of_false (not_not_intro hrefused) ?_⟩
    rintro ⟨r, -, -, hsent⟩
    cases hsent
  · rw [hsome]
    refine ⟨iff_of_false nofun hpassed, iff_of_true hpassed ?_⟩
    refine ⟨r, (Kind.keyed_eq_ok_iff.1 hr).1, ?_, ?_⟩
    · rintro id rfl
      exact naturalKey_of_adopt hr hpassed
    · rw [request, Client.request, Option.isSome_map]
      rfl

/-- A malformed field refuses a reading too, which needs none but the natural key. -/
example : (read.call .snmp .blank ((DeclaredState.empty.set "node_id" (.string "abc123")).set
    "enabled" (.string "yes"))).sent (.answering []) () = [] := by decide

end Op
end Reconciler
