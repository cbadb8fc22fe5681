import Reconciler.Proofs.Resource.Convergence
import Reconciler.Proofs.Resource.Operations
import Reconciler.Proofs.Resource.Rewriting

/-! The identity of a resource over its lifetime. Whatever is done to a state that begins without
one, and whatever the servers say to it, the state has an identity just when the last operation that
succeeded has written or found its resource. It is then the identity of the natural key in it. -/
namespace Reconciler

namespace Kind
variable {k : Kind} {c : Client} {s : DeclaredState} {r : k.schema.Record}

def Identified (k : Kind) (s : DeclaredState) : Prop :=
  ∃ key, key ≠ "" ∧ s.get? k.naturalKey = some (.string key) ∧ s.id = some (identity k.tag key)

theorem identified_setId (hr : k.keyed s = .ok r) :
    k.Identified (s.setId (identity k.tag (k.schema.naturalKey r))) := by
  refine ⟨_, (keyed_eq_ok_iff.1 hr).2.1, ?_, rfl⟩
  rw [DeclaredState.get?_setId, get?_naturalKey_of_keyed hr]

theorem identified_refreshed (hr : k.keyed s = .ok r) (d : k.schema.Document) :
    k.Identified (k.refreshed (k.schema.naturalKey r) d s) := by
  refine ⟨_, (keyed_eq_ok_iff.1 hr).2.1, ?_, rfl⟩
  rw [get?_naturalKey_refreshed hr, get?_naturalKey_of_keyed hr]

/-- A state is identified where its resource is established, and has no identity where it is not. -/
def IdentifiedIf (k : Kind) (established : Bool) (s : DeclaredState) : Prop :=
  if established then k.Identified s else s.id = none

section IdentifiedIf
variable {established : Bool} (h : k.IdentifiedIf established s)
include h

theorem IdentifiedIf.hasId : s.hasId = established := by
  cases established with
  | false => exact congrArg Option.isSome h
  | true =>
    obtain ⟨key, -, -, hid⟩ := h
    exact congrArg Option.isSome hid

theorem IdentifiedIf.exists_key {id : String} (hid : s.id = some id) :
    ∃ key, s.get? k.naturalKey = some (.string key) ∧ id = identity k.tag key ∧
      parseIdentity? k.tag id = some key := by
  cases established with
  | false => exact absurd (hid.symm.trans h) nofun
  | true =>
    obtain ⟨key, hne, hget, hid'⟩ := h
    obtain rfl : id = identity k.tag key := Option.some.inj (hid.symm.trans hid')
    exact ⟨key, hget, rfl, parseIdentity?_identity _ hne⟩

end IdentifiedIf

theorem write_identifies {outcome : ApplyResult} : (k.write c outcome s).Ensures fun step =>
    ∀ result, step.1 = .ok result → k.Identified step.2 := by
  unfold write
  cases hw : k.writable s with
  | error e => exact nofun
  | ok r =>
    refine Call.ensures_map.2 (Call.ensures_of_forall fun result => ?_)
    cases result with
    | error e => exact nofun
    | ok _ => exact fun _ _ => identified_setId (writable_eq_ok_iff.1 hw).1

theorem read_identifies : (k.read c s).Ensures fun step =>
    ∀ presence, step.1 = .ok presence → k.IdentifiedIf (presence = .present) step.2 := by
  cases hr : k.keyed s with
  | error e =>
    rw [read_of_error hr]
    exact nofun
  | ok r =>
    rw [read_of_keyed hr]
    intro reply
    rcases k.afterGet_cases c (k.schema.naturalKey r) s reply with
      ⟨-, d, -, -, hstep⟩ | ⟨-, -, hstep⟩ | ⟨e, hstep⟩
    · rw [hstep]
      rintro _ ⟨⟩
      exact identified_refreshed hr d
    · rw [hstep]
      rintro _ ⟨⟩
      rfl
    · rw [hstep]
      exact nofun

theorem delete_identifies : (k.delete c s).Ensures fun step =>
    ∀ result, step.1 = .ok result → step.2.id = none := by
  refine delete_cases.imp ?_
  rintro _ (rfl | rfl | ⟨e, rfl⟩)
  · exact fun _ _ => rfl
  · exact fun _ _ => rfl
  · exact nofun

end Kind

theorem Step.map_fst_eq_ok_iff {α β : Type} {f : α → β} {step : Step α} {b : β} :
    (step.map f).1 = .ok b ↔ ∃ a, step.1 = .ok a ∧ f a = b := by
  obtain ⟨result, s⟩ := step
  cases result <;> simp [Step.map, Except.map]

namespace Op
variable {k : Kind} {c : Client} {s : DeclaredState}

def establishes : Op → Effect → Bool
  | .create, _ | .update, _ => true
  | .read, effect | .adopt _, effect => effect = .observed .present
  | .delete, _ => false

/-- The state that is kept once an operation has been made. Where adopting fails that is the state
from before: what adopting has made of it is thrown away. -/
def kept (op : Op) (before : DeclaredState) (step : Step Effect) : DeclaredState :=
  match op, step.1 with
  | .adopt _, .error _ => before
  | _, _ => step.2

theorem call_identifies (op : Op) : (op.call k c s).Ensures fun step =>
    ∀ effect, step.1 = .ok effect → k.IdentifiedIf (op.establishes effect) step.2 := by
  have hread : ∀ s, (read.call k c s).Ensures fun step =>
      ∀ effect, step.1 = .ok effect → k.IdentifiedIf (read.establishes effect) step.2 := by
    refine fun s => Call.ensures_map.2 (Kind.read_identifies.imp fun step h effect heffect => ?_)
    obtain ⟨presence, hpresence, rfl⟩ := Step.map_fst_eq_ok_iff.1 heffect
    have hobserved := h presence hpresence
    simpa [establishes, Step.map] using hobserved
  cases op with
  | create | update =>
    refine Call.ensures_map.2 (Kind.write_identifies.imp fun step h effect heffect => ?_)
    obtain ⟨result, hresult, -⟩ := Step.map_fst_eq_ok_iff.1 heffect
    exact h result hresult
  | read => exact hread s
  | delete =>
    refine Call.ensures_map.2 (Kind.delete_identifies.imp fun step h effect heffect => ?_)
    obtain ⟨result, hresult, -⟩ := Step.map_fst_eq_ok_iff.1 heffect
    exact h result hresult
  | adopt id =>
    cases hid : parseIdentity? k.tag id with
    | none =>
      rw [call_adopt_of_none hid]
      exact nofun
    | some key =>
      rw [call_adopt_of_some hid]
      exact hread _

theorem kept_of_ok {op : Op} {step : Step Effect} {effect : Effect} (h : step.1 = .ok effect) :
    op.kept s step = step.2 := by
  cases op <;> simp only [kept, h]

/-- Whatever fails, the state that is kept is the one from before. -/
theorem kept_of_error (op : Op) : (op.call k c s).Ensures fun step =>
    ∀ e, step.1 = .error e → op.kept s step = s := by
  refine op.call_keepsOnError.imp fun step hkeeps e he => ?_
  cases op with
  | create | read | update | delete => exact hkeeps e he
  | adopt id => simp only [kept, he]

end Op

/-- What has been done to a state and what came of it, the latest first, and the state that is there
now. Each operation may be made by a client and against a server of its own. -/
inductive Lifetime (k : Kind) (s₀ : DeclaredState) :
    List (Op × Except Failure Effect) → DeclaredState → Prop
  | start : Lifetime k s₀ [] s₀
  | next {σ : Type} {past : List (Op × Except Failure Effect)} {s : DeclaredState}
      (h : Lifetime k s₀ past s) (op : Op) (c : Client) (server : Server σ) (w : σ) :
      Lifetime k s₀ ((op, ((op.call k c s).run server w).1.1) :: past)
        (op.kept s ((op.call k c s).run server w).1)

namespace Lifetime
variable {k : Kind} {s₀ s : DeclaredState} {past : List (Op × Except Failure Effect)}

def latest? (past : List (Op × Except Failure Effect)) : Option (Op × Effect) :=
  past.findSome? fun (op, result) => result.toOption.map fun effect => (op, effect)

/-- What every operation preserves. -/
theorem identifiedIf (hnew : s₀.id = none) (h : Lifetime k s₀ past s) :
    k.IdentifiedIf ((latest? past).any fun (op, effect) => op.establishes effect) s := by
  induction h with
  | start => exact hnew
  | @next σ past s _ op c server w ih =>
    have hidentifies := (op.call_identifies (k := k) (c := c) (s := s)).run server w
    have hkept := (op.kept_of_error (k := k) (c := c) (s := s)).run server w
    cases hresult : ((op.call k c s).run server w).1.1 with
    | error e =>
      rw [hkept e hresult]
      exact ih
    | ok effect =>
      rw [Op.kept_of_ok hresult]
      exact hidentifies effect hresult

/-- Over a whole lifetime that begins without an identity, a state has one just when the last
operation that succeeded has created, updated or observed the resource. Then it is the identity of
the natural key that stands in the state, and that key can be read off it. -/
theorem identity_follows (hnew : s₀.id = none) (h : Lifetime k s₀ past s) :
    (s.hasId = true ↔ ∃ op effect, latest? past = some (op, effect) ∧
      op.establishes effect = true) ∧
    ∀ id, s.id = some id → ∃ key, s.get? k.naturalKey = some (.string key) ∧
      id = identity k.tag key ∧ parseIdentity? k.tag id = some key := by
  have hidentified := h.identifiedIf hnew
  refine ⟨?_, fun id => hidentified.exists_key⟩
  rw [hidentified.hasId, Option.any_eq_true, Prod.exists]

/-- An agent that has been adopted keeps its identity when an identity of another kind cannot be. -/
theorem identity_follows_adopted : ∃ s, Lifetime .snmp .empty
    [(.adopt "node_abc123", .error (.invalidIdentity .snmp "node_abc123")),
      (.adopt "snmp_abc123", .ok (.observed .present))] s ∧
    DeclaredState.empty.id = none ∧ s.hasId = true ∧
    ∃ id key, s.id = some id ∧ s.get? "node_id" = some (.string key) ∧
      parseIdentity? "snmp" id = some key := by
  let server := Server.answering (Client.payload (Kind.snmp.schema.encode SnmpDocument.defaults))
  have hkeyed : Kind.snmp.keyed (Kind.snmp.bare "abc123") = .ok _ :=
    Kind.keyed_bare (by decide) (by decide)
  have hread := Kind.read_answering (c := .blank) hkeyed
    (Kind.snmp.document?_payload SnmpDocument.defaults)
  have hfound : (((Op.adopt "snmp_abc123").call .snmp .blank .empty).run server ()).1.1 =
      .ok (.observed .present) := by
    rw [Op.call, Call.run_map]
    exact congrArg (fun step => (Step.map Effect.observed step).1) hread
  have hstart : Lifetime .snmp .empty [] .empty := .start
  have hadopted := hstart.next (.adopt "snmp_abc123") .blank server ()
  rw [hfound] at hadopted
  have hrefused := hadopted.next (.adopt "node_abc123") .blank server ()
  have hnew : DeclaredState.empty.id = none := rfl
  obtain ⟨hiff, hkey⟩ := identity_follows hnew hrefused
  have hhas := hiff.2 ⟨_, _, rfl, rfl⟩
  obtain ⟨id, hid⟩ := Option.isSome_iff_exists.1 hhas
  obtain ⟨key, hget, -, hparse⟩ := hkey id hid
  exact ⟨_, hrefused, hnew, hhas, id, key, hid, hget, hparse⟩

end Lifetime
end Reconciler
