import Reconciler.Proofs.Api.DocumentServer
import Reconciler.Proofs.Resource.Operations
import Reconciler.Proofs.Resource.Paths

/-! No operation reaches beyond its own resource. Requests go to the path of an accepted key, and
documents of all other resources are left alone. -/
namespace Reconciler
open DocumentServer (pathOf)

namespace Kind

/-- Different resources have different paths. -/
theorem path_inj {a b : String} {k l : Kind} (ha : isPathSegment a = true)
    (hb : isPathSegment b = true) (h : k.path a = l.path b) : k = l ∧ a = b := by
  have hplace : pathOf ("" ++ k.path a) = pathOf ("" ++ l.path b) := by rw [h]
  exact pathOf_inj ha hb hplace

/-- The path of the organization is none of a resource. -/
theorem path_ne_organizationPath {k : Kind} {key : String} (hkey : isPathSegment key = true) :
    k.path key ≠ organizationPath := by
  intro h
  have hslash : slashed (k.segments key.toList) =
      slashed ["v2".toList, "organization".toList] := by
    have hlist := congrArg String.toList h
    rwa [path_eq, String.toList_ofList] at hlist
  have hsegments := slashed_inj (not_mem_segments hkey (by decide)) (by decide) hslash
  cases k <;> simp [segments] at hsegments

/-- Where a document server may keep a document of a resource: at the place that a base URL takes
it to, and at its own path. -/
def places (base : String) (k : Kind) (key : String) : List String :=
  [pathOf (base ++ k.path key), k.path key]

/-- The place of a request is none of another resource. -/
theorem eq_of_mem_places {base a b : String} {k l : Kind} (ha : isPathSegment a = true)
    (hb : isPathSegment b = true) (h : pathOf (base ++ k.path a) ∈ l.places base b) :
    k = l ∧ a = b := by
  simp only [places, List.mem_cons, List.not_mem_nil, or_false] at h
  rcases h with h | h
  · exact pathOf_inj ha hb h
  · exact eq_of_pathOf_eq_path ha hb h

end Kind

/-- A call reaches a document server with the request that it makes, if it makes one, and changes
no document elsewhere. -/
theorem DocumentServer.run_effect {α : Type} (call : Call α) (w : DocumentServer) :
    (call.run server w).2.requests = w.requests ++ call.request?.toList ∧
      ∀ p, (∀ request, call.request? = some request → p ≠ pathOf request.url) →
        (call.run server w).2.documents.get? p = w.documents.get? p := by
  cases call with
  | settled a => exact ⟨(List.append_nil _).symm, fun _ _ => rfl⟩
  | exchange request receive =>
    refine ⟨by simp [server, answer, Call.request?], fun p hp => ?_⟩
    exact (get?_answer ..).trans (if_neg (hp request rfl))

namespace Op

/-- An operation on a resource of kind `k` stays with the resource that the state names. -/
structure Confined (k : Kind) (c : Client) (s : DeclaredState) (op : Op) : Prop where
  url : ∀ request, (op.call k c s).request? = some request → ∃ key,
    k.HasKey (op.subject k s) key ∧ request.url = c.baseUrl ++ k.path key
  requests : ∀ w, ((op.call k c s).run DocumentServer.server w).2.requests =
    w.requests ++ (op.call k c s).request?.toList
  documents : ∀ w l key, isPathSegment key = true → ¬(l = k ∧ k.HasKey (op.subject k s) key) →
    ∀ p ∈ l.places c.baseUrl key,
      ((op.call k c s).run DocumentServer.server w).2.documents.get? p = w.documents.get? p

theorem confined (k : Kind) (c : Client) (s : DeclaredState) (op : Op) : op.Confined k c s where
  url request hrequest := by
    obtain ⟨r, hr, hurl⟩ := op.call_visits request hrequest
    exact ⟨_, Kind.hasKey_iff.2 ⟨r, hr, rfl⟩, hurl⟩
  requests w := (DocumentServer.run_effect _ w).1
  documents w l key hkey hother p hp := by
    refine (DocumentServer.run_effect _ w).2 p fun request hrequest => ?_
    rintro rfl
    obtain ⟨r, hr, hurl⟩ := op.call_visits request hrequest
    have hseg := (Kind.keyed_eq_ok_iff.1 hr).2.2
    rw [hurl] at hp
    obtain ⟨rfl, rfl⟩ := Kind.eq_of_mem_places hseg hkey hp
    exact hother ⟨rfl, Kind.hasKey_iff.2 ⟨r, hr, rfl⟩⟩

end Op

/-- No operation on a resource reaches another one. Paths tell all resources apart, and from the
organization; so whatever the base URL and the declared natural key, every request goes to the path
of an accepted key of its kind, and the documents of all other resources are as they were. -/
theorem Kind.reach (k : Kind) :
    (∀ l a b, isPathSegment a = true → isPathSegment b = true → k.path a = l.path b →
      k = l ∧ a = b) ∧
    (∀ a, isPathSegment a = true → k.path a ≠ organizationPath) ∧
    ∀ c s op, Op.Confined k c s op :=
  ⟨fun _ _ _ ha hb => path_inj ha hb, fun _ ha => path_ne_organizationPath ha, Op.confined k⟩

/-- Setting up the agent of a node leaves the node alone, and the organization. -/
theorem Kind.reach_monitored (w : DocumentServer) : snmp.path "abc123" ≠ organizationPath ∧
    ((Op.create.call snmp .blank (snmp.schema.project Snmp.monitored .empty)).run
      DocumentServer.server w).2.documents.get? "/v2/node/abc123" =
      w.documents.get? "/v2/node/abc123" := by
  obtain ⟨-, horganization, hconfined⟩ := reach snmp
  have hcreate := hconfined .blank (snmp.schema.project Snmp.monitored .empty) .create
  refine ⟨horganization "abc123" (by decide), ?_⟩
  exact hcreate.documents w node "abc123" (by decide) (fun h => by cases h.1) _
    (.tail _ (.head _))

end Reconciler
