import Reconciler.Proofs.Resource.Rewriting

/-! Reading a resource once more. A state that has taken over a document stays as it is when the
same document comes again. -/
namespace Reconciler

def Server.replying (reply : Request → Reply) : Server Unit := ⟨fun request w => (reply request, w)⟩

theorem preferred_preferred (server : Value) (declared : Option Value) :
    preferred server (some (preferred server declared)) = preferred server declared := by
  unfold preferred
  split
  · cases hv : declared.filter fun v => !v.isEmpty with
    | none => rfl
    | some v =>
      obtain ⟨-, hne⟩ := Option.filter_eq_some_iff.1 hv
      simp only [Option.getD_some, Option.filter, hne, if_true]
  · rfl

namespace Kind
variable {k : Kind} {c : Client} {s s' : DeclaredState} {reply : Request → Reply}

/-- Taking over a document twice is taking it over once. -/
theorem refreshed_refreshed (k : Kind) (key : String) (d : k.schema.Document) (s : DeclaredState) :
    k.refreshed key d (k.refreshed key d s) = k.refreshed key d s := by
  refine DeclaredState.ext_get? rfl fun x => ?_
  by_cases hx : x ∈ k.keys
  · obtain ⟨f, hf, rfl⟩ := mem_keys.1 hx
    by_cases hsecret : f.key ∈ k.secretKeys
    · rw [get?_refreshed_secret k key d _ hf hsecret, get?_refreshed_secret k key d s hf hsecret,
        preferred_preferred]
    · rw [get?_refreshed_mapped k key d _ hf hsecret, get?_refreshed_mapped k key d s hf hsecret]
  · exact get?_refreshed_unmapped k key d _ hx

/-- What a reading has found has its identity; it is found again, and stays as it is. -/
theorem read_again (h : ((k.read c s).run (.replying reply) ()).1 = (.ok .present, s')) :
    s'.hasId = true ∧ ((k.read c s').run (.replying reply) ()).1 = (.ok .present, s') := by
  cases hk : k.keyed s with
  | error e =>
    rw [read_of_error hk] at h
    cases h
  | ok r =>
    rw [read_of_keyed hk] at h
    obtain ⟨body, d, hreply, hd, rfl⟩ := exists_document_of_afterGet h
    have hkey : k.schema.naturalKey
        (k.keepSecrets r (k.schema.ofDocument (k.schema.naturalKey r) d)) =
        k.schema.naturalKey r := by simp
    refine ⟨rfl, ?_⟩
    rw [read_of_keyed (keyed_refreshed hk d), hkey]
    change k.afterGet c _ _ (reply _) = _
    change reply _ = _ at hreply
    rw [hreply, afterGet_found hd, refreshed_refreshed]

end Kind
end Reconciler
