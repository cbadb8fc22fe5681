import Reconciler.Batch.Run
import Reconciler.Proofs.Resource.Operations

/-! The turn of one entry. Whatever the reply, a failure leaves the state as it was; and the one
request of an entry goes to the place of its resource. -/
namespace Reconciler

namespace Entry
variable {e : Entry} {c : Client} {op : Operation}

def reported : Except Failure ApplyResult → ApplyResult
  | .ok result => result
  | .error failure => .failed failure.message

def after (e : Entry) (index : Nat) (step : Step ApplyResult) : Entry × Outcome :=
  (⟨e.kind, step.2⟩, ⟨e.kind, label e.state step.2 e.kind index, reported step.1⟩)

theorem run_eq (index : Nat) : e.run c op index = (e.step c op).map (e.after index) := by
  unfold run
  refine congrArg (Call.map · _) (funext fun step => ?_)
  obtain ⟨result, s⟩ := step
  cases result <;> rfl

section Step
variable {k : Kind}

theorem step_of_unknown {failure : Failure} (hk : Kind.find e.kind = .error failure) :
    e.step c op = .settled (.error failure, e.state) := by
  simp only [step, hk]

/-- Without an identity there is nothing to read or to delete. -/
theorem step_of_idle (hk : Kind.find e.kind = .ok k) (hid : e.state.hasId = false)
    (hop : op ≠ .apply) : e.step c op = .settled (.ok .noChange, e.state) := by
  cases op with
  | apply => exact absurd rfl hop
  | refresh | destroy => simp only [step, hk, hid]

theorem step_refresh (hk : Kind.find e.kind = .ok k) (hid : e.state.hasId = true) :
    e.step c .refresh = refresh k c e.state := by
  simp only [step, hk, hid]

theorem step_destroy (hk : Kind.find e.kind = .ok k) (hid : e.state.hasId = true) :
    e.step c .destroy = k.delete c e.state := by
  simp only [step, hk, hid]

def afterReading (s : DeclaredState) : Step Presence → Step ApplyResult
  | (.error failure, s') => (.error failure, s')
  | (.ok .absent, s') => (.ok .removed, s')
  | (.ok .present, s') => (.ok (if s'.same s then .noChange else .modified), s')

theorem refresh_eq (k : Kind) (c : Client) (s : DeclaredState) :
    refresh k c s = (k.read c s).map (afterReading s) := rfl

end Step

/-- A refresh that fails leaves the state as it was. -/
theorem refresh_honest {k : Kind} {s : DeclaredState} :
    (refresh k c s).Ensures (Step.Honest s) := by
  refine Call.ensures_map.2 (Kind.read_keepsOnError.imp ?_)
  rintro ⟨result, s'⟩ hkeeps
  cases result with
  | error failure =>
    obtain rfl : s' = s := hkeeps failure rfl
    exact Step.honest_error
  | ok presence =>
    cases presence with
    | absent => exact Step.honest_ok rfl
    | present =>
      refine Step.honest_ok ?_
      split <;> rfl

/-- The step of an entry reports a failure only if it fails, and then its state is as it was. -/
theorem step_honest : (e.step c op).Ensures (Step.Honest e.state) := by
  unfold step
  cases Kind.find e.kind with
  | error failure => exact Step.honest_error
  | ok k =>
    cases op <;> cases e.state.hasId
    case apply.false | apply.true => exact Kind.write_honest rfl
    case refresh.true => exact refresh_honest
    case destroy.true => exact Kind.delete_honest
    case refresh.false | destroy.false => exact Step.honest_ok rfl

/-- The kind and the natural key of an entry, if it is of a known kind and its key is accepted. -/
def resource? (e : Entry) : Option (Kind × String) :=
  match Kind.ofTag? e.kind with
  | none => none
  | some k =>
    match k.keyed e.state with
    | .error _ => none
    | .ok record => some (k, k.schema.naturalKey record)

theorem resource?_of_keyed {k : Kind} (hk : Kind.ofTag? e.kind = some k) {record : k.schema.Record}
    (hr : k.keyed e.state = .ok record) : e.resource? = some (k, k.schema.naturalKey record) := by
  simp only [resource?, hk, hr]

/-- The one request of an entry goes to the place of its resource. -/
theorem url_of_request {request : Request} (h : (e.step c op).request? = some request) :
    ∃ k key, e.resource? = some (k, key) ∧ isPathSegment key = true ∧
      request.url = c.baseUrl ++ k.path key := by
  unfold step Kind.find at h
  cases hk : Kind.ofTag? e.kind with
  | none =>
    simp only [hk] at h
    cases h
  | some k =>
    simp only [hk] at h
    have hvisits : ∃ record, k.keyed e.state = .ok record ∧
        request.url = c.baseUrl ++ k.path (k.schema.naturalKey record) := by
      cases op <;> cases hid : e.state.hasId <;> simp only [hid] at h
      case apply.false | apply.true => exact Kind.write_visits request h
      case refresh.true => exact Kind.read_visits request ((Call.request?_map ..).symm.trans h)
      case destroy.true => exact Kind.delete_visits request h
      case refresh.false | destroy.false => cases h
    obtain ⟨record, hr, hurl⟩ := hvisits
    exact ⟨k, _, resource?_of_keyed hk hr, (Kind.keyed_eq_ok_iff.1 hr).2.2, hurl⟩

end Entry
end Reconciler
