import Reconciler.Proofs.Api.Call
import Reconciler.Proofs.Resource.History
import Reconciler.Proofs.Resource.Writing

/-! What the operations on a resource have in common, whatever the reply. A failure leaves the
state that the operation began with, and the one request goes to the place of the resource that
this state names. -/
namespace Reconciler

namespace Step
variable {α β : Type}

def KeepsOnError (s : DeclaredState) (step : Step α) : Prop :=
  ∀ e, step.1 = .error e → step.2 = s

theorem KeepsOnError.map {s : DeclaredState} {step : Step α} (h : step.KeepsOnError s)
    (f : α → β) : (step.map f).KeepsOnError s := by
  intro e he
  obtain ⟨result, s'⟩ := step
  cases result with
  | error e' => exact h e' rfl
  | ok a => cases he

/-- Only a step that fails reports a failure, and it leaves the state as it was. -/
structure Honest (s : DeclaredState) (step : Step ApplyResult) : Prop where
  keeps : step.KeepsOnError s
  succeeds : ∀ result, step.1 = .ok result → result.isSuccess = true

theorem honest_error {s : DeclaredState} {e : Failure} : Honest s (.error e, s) :=
  ⟨fun _ _ => rfl, nofun⟩

theorem honest_ok {s s' : DeclaredState} {result : ApplyResult} (h : result.isSuccess = true) :
    Honest s (.ok result, s') :=
  ⟨nofun, fun _ hr => Except.ok.inj hr ▸ h⟩

end Step

namespace Kind
variable {k : Kind} {c : Client} {s : DeclaredState}

/-- A writing that fails leaves the state as it was. -/
theorem write_honest {outcome : ApplyResult} (h : outcome.isSuccess = true) :
    (k.write c outcome s).Ensures (Step.Honest s) := by
  unfold write
  cases k.writable s with
  | error e => exact Step.honest_error
  | ok record =>
    refine Call.ensures_map.2 (Call.ensures_of_forall fun result => ?_)
    cases result with
    | error e => exact Step.honest_error
    | ok _ => exact Step.honest_ok h

/-- A reading that fails leaves the state as it was. -/
theorem read_keepsOnError : (k.read c s).Ensures (Step.KeepsOnError s) := by
  unfold read
  cases k.keyed s with
  | error e => exact fun _ _ => rfl
  | ok record =>
    refine Call.ensures_map.2 (Call.ensures_of_forall fun result => ?_)
    cases result with
    | ok document => exact nofun
    | error e =>
      dsimp only
      split
      · exact nofun
      · exact fun _ _ => rfl

/-- What a deletion may come to. A resource that is missing already counts as no change. -/
theorem delete_cases : (k.delete c s).Ensures fun step => step = (.ok .removed, s.clearId) ∨
    step = (.ok .noChange, s.clearId) ∨ ∃ e, step = (.error e, s) := by
  unfold delete
  cases k.keyed s with
  | error e => exact .inr (.inr ⟨e, rfl⟩)
  | ok record =>
    refine Call.ensures_map.2 (Call.ensures_of_forall fun result => ?_)
    cases result with
    | ok _ => exact .inl rfl
    | error e =>
      dsimp only
      split
      · exact .inr (.inl rfl)
      · exact .inr (.inr ⟨_, rfl⟩)

theorem delete_honest : (k.delete c s).Ensures (Step.Honest s) := by
  refine delete_cases.imp ?_
  rintro _ (rfl | rfl | ⟨e, rfl⟩)
  · exact Step.honest_ok rfl
  · exact Step.honest_ok rfl
  · exact Step.honest_error

/-- A call sends its request, if it sends one, to the place of the resource that a state names. -/
def Visits {α : Type} (k : Kind) (c : Client) (s : DeclaredState) (call : Call α) : Prop :=
  ∀ request, call.request? = some request → ∃ record, k.keyed s = .ok record ∧
    request.url = c.baseUrl ++ k.path (k.schema.naturalKey record)

theorem Visits.map {α β : Type} {call : Call α} (h : k.Visits c s call) (f : α → β) :
    k.Visits c s (call.map f) := by
  intro request hrequest
  exact h request ((Call.request?_map ..).symm.trans hrequest)

theorem write_visits {outcome : ApplyResult} : k.Visits c s (k.write c outcome s) := by
  intro request h
  cases hw : k.writable s with
  | error e =>
    rw [write_of_error hw] at h
    cases h
  | ok record =>
    rw [write_of_writable hw] at h
    cases h
    exact ⟨record, (writable_eq_ok_iff.1 hw).1, rfl⟩

theorem read_visits : k.Visits c s (k.read c s) := by
  intro request h
  cases hk : k.keyed s with
  | error e =>
    unfold read at h
    rw [hk] at h
    cases h
  | ok record =>
    rw [read_of_keyed hk] at h
    cases h
    exact ⟨record, rfl, rfl⟩

theorem delete_visits : k.Visits c s (k.delete c s) := by
  intro request h
  unfold delete at h
  cases hk : k.keyed s with
  | error e =>
    rw [hk] at h
    cases h
  | ok record =>
    rw [hk] at h
    refine ⟨record, rfl, ?_⟩
    -- How a resource goes away is up to its kind; where it is, is not.
    cases k <;> cases h <;> rfl

end Kind

namespace Op
variable {k : Kind} {c : Client} {s : DeclaredState} {id : String}

/-- The state that an operation takes its record from. Adopting puts the natural key there first,
once it has found one in the identity. -/
def subject (k : Kind) (s : DeclaredState) : Op → DeclaredState
  | .create | .read | .update | .delete => s
  | .adopt id =>
    match parseIdentity? k.tag id with
    | none => s
    | some key => s.set k.naturalKey (.string key)

theorem subject_adopt_of_none (h : parseIdentity? k.tag id = none) :
    (adopt id).subject k s = s := by
  simp only [subject, h]

theorem subject_adopt_of_some {key : String} (h : parseIdentity? k.tag id = some key) :
    (adopt id).subject k s = s.set k.naturalKey (.string key) := by
  simp only [subject, h]

/-- An identity of another kind is turned down without a request. -/
theorem call_adopt_of_none (h : parseIdentity? k.tag id = none) :
    (adopt id).call k c s = .settled (.error (.invalidIdentity k id), s) := by
  simp only [call, Kind.adopt, h]
  rfl

/-- Adopting is reading once the natural key has been taken over. -/
theorem call_adopt_of_some {key : String} (h : parseIdentity? k.tag id = some key) :
    (adopt id).call k c s = read.call k c ((adopt id).subject k s) := by
  simp only [call, Kind.adopt, subject, h]

/-- Every operation that fails leaves the state it has taken its record from. -/
theorem call_keepsOnError (op : Op) :
    (op.call k c s).Ensures (Step.KeepsOnError (op.subject k s)) := by
  have hread : ∀ s, (read.call k c s).Ensures (Step.KeepsOnError s) := fun s =>
    Call.ensures_map.2 (Kind.read_keepsOnError.imp fun _ h => h.map _)
  cases op with
  | create | update =>
    exact Call.ensures_map.2 ((Kind.write_honest rfl).imp fun _ h => h.keeps.map _)
  | read => exact hread s
  | delete => exact Call.ensures_map.2 (Kind.delete_honest.imp fun _ h => h.keeps.map _)
  | adopt id =>
    cases h : parseIdentity? k.tag id with
    | none =>
      rw [call_adopt_of_none h, subject_adopt_of_none h]
      exact fun _ _ => rfl
    | some key =>
      rw [call_adopt_of_some h]
      exact hread _

/-- Every operation visits the place of the resource that this state names, and no other. -/
theorem call_visits (op : Op) : k.Visits c (op.subject k s) (op.call k c s) := by
  cases op with
  | create | update => exact Kind.write_visits.map _
  | read => exact Kind.read_visits.map _
  | delete => exact Kind.delete_visits.map _
  | adopt id =>
    cases h : parseIdentity? k.tag id with
    | none =>
      rw [call_adopt_of_none h]
      exact nofun
    | some key =>
      rw [call_adopt_of_some h]
      exact Kind.read_visits.map _

end Op
end Reconciler
