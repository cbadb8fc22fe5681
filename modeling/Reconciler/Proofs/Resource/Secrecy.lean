import Mathlib.Data.List.Nodup
import Reconciler.Proofs.Declared.Sameness
import Reconciler.Proofs.Resource.Rewriting

/-! Secrets stay secret. States that differ in secrets alone, and have one where they differ, fail
with the same words, are kept under the same key, and stay such states when they are refreshed. -/
namespace Reconciler

namespace DeclaredState
variable {secrets : List String} {s t : DeclaredState} {x : String}

/-- Two states that agree but for these secrets, and have a text for each secret in which they
differ. -/
structure Alike (secrets : List String) (s t : DeclaredState) : Prop where
  id : s.id = t.id
  get? : ∀ x, s.get? x = t.get? x ∨ x ∈ secrets ∧ ∃ a b, a ≠ "" ∧ b ≠ "" ∧
    s.get? x = some (.string a) ∧ t.get? x = some (.string b)

theorem Alike.symm (h : s.Alike secrets t) : t.Alike secrets s where
  id := h.id.symm
  get? x := (h.get? x).imp Eq.symm fun ⟨hx, a, b, ha, hb, hs, ht⟩ => ⟨hx, b, a, hb, ha, ht, hs⟩

theorem Alike.get?_eq (h : s.Alike secrets t) (hx : x ∉ secrets) : s.get? x = t.get? x :=
  (h.get? x).resolve_right fun hsecret => hx hsecret.1

theorem Alike.setId (h : s.Alike secrets t) (id : String) :
    (s.setId id).Alike secrets (t.setId id) := ⟨rfl, h.get?⟩

theorem Alike.clearId (h : s.Alike secrets t) : s.clearId.Alike secrets t.clearId := ⟨rfl, h.get?⟩

end DeclaredState

namespace Kind
variable {k : Kind} {s t : DeclaredState} {r r' : k.schema.Record}

/-- No field but that of a secret stands under its key. -/
theorem eq_plain_of_secret {f : Field k.schema.Record} (hf : f ∈ k.fields) {x : String}
    (hkey : f.key = x) (hx : x ∈ k.secretKeys) :
    ∃ (get : k.schema.Record → String) (set : k.schema.Record → String → k.schema.Record),
      f = Field.plain x get set := by
  obtain ⟨get, set, hg⟩ := k.secret_mem hx
  exact ⟨get, set, List.inj_on_of_nodup_map k.lawfulFields.distinct hf hg hkey⟩

section Alike
variable (h : s.Alike k.secretKeys t)
include h

/-- Fields read alike, or both read a text. -/
theorem read_alike {f : Field k.schema.Record} (hf : f ∈ k.fields) :
    f.read (.ofState s) = f.read (.ofState t) ∨
      (∃ v, f.read (.ofState s) = .ok v) ∧ ∃ v, f.read (.ofState t) = .ok v := by
  rcases h.get? f.key with hsame | ⟨hx, a, b, -, -, hs, ht⟩
  · exact .inl ((k.lawfulFields.faithful f hf).read_congr s t hsame)
  · obtain ⟨get, set, hplain⟩ := eq_plain_of_secret hf rfl hx
    generalize f.key = x at hs ht hplain
    subst hplain
    exact .inr ⟨⟨a, Reading.get_of_get? hs⟩, b, Reading.get_of_get? ht⟩

/-- Whether a state yields a record does not hang on its secrets. -/
theorem materialize_error_alike {e : TypeMismatch} (he : k.schema.materialize s = .error e) :
    k.schema.materialize t = .error e := by
  rw [materialize_eq] at he ⊢
  exact loadAll_error_congr (fun _ hf => read_alike h hf) he

theorem exists_materialize_alike (hr : k.schema.materialize s = .ok r) :
    ∃ r', k.schema.materialize t = .ok r' := by
  cases ht : k.schema.materialize t with
  | ok r' => exact ⟨r', rfl⟩
  | error e =>
    rw [materialize_error_alike h.symm ht] at hr
    cases hr

section Records
variable (hr : k.schema.materialize s = .ok r) (hr' : k.schema.materialize t = .ok r')
include hr hr'

/-- A text that is no secret is the same in both records. -/
theorem text_alike {x : String} {get : k.schema.Record → String}
    {set : k.schema.Record → String → k.schema.Record}
    (hf : Field.plain x get set ∈ k.fields) (hx : x ∉ k.secretKeys) : get r' = get r := by
  have hs := (k.materialize_eq_ok_iff s r).1 hr _ hf
  have ht := (k.materialize_eq_ok_iff t r').1 hr' _ hf
  rw [(k.lawfulFields.faithful _ hf).read_congr s t (h.get?_eq hx), ht] at hs
  exact Except.ok.inj hs

/-- A secret is in both records or in none. -/
theorem secret_alike {x : String} {get : k.schema.Record → String}
    {set : k.schema.Record → String → k.schema.Record}
    (hf : Field.plain x get set ∈ k.fields) : get r' = "" ↔ get r = "" := by
  have hs : (Reading.ofState s).get String x = .ok (get r) :=
    (k.materialize_eq_ok_iff s r).1 hr _ hf
  have ht : (Reading.ofState t).get String x = .ok (get r') :=
    (k.materialize_eq_ok_iff t r').1 hr' _ hf
  rcases h.get? x with hsame | ⟨-, a, b, ha, hb, hsa, htb⟩
  · rw [Reading.get_ofState, hsame, ← Reading.get_ofState, ht] at hs
    rw [Except.ok.inj hs]
  · rw [Reading.get_of_get? (α := String) hsa] at hs
    rw [Reading.get_of_get? (α := String) htb] at ht
    rw [← Except.ok.inj hs, ← Except.ok.inj ht]
    exact iff_of_false hb ha

/-- The natural key is no secret. -/
theorem naturalKey_alike : k.schema.naturalKey r' = k.schema.naturalKey r := by
  obtain ⟨set, hf⟩ := k.naturalKey_mem
  exact text_alike h hr hr' hf (by cases k <;> decide)

theorem missing?_alike : k.schema.missing? r' = k.schema.missing? r := by
  cases k with
  | node | cpuLimits | ioLimits | license => rfl
  | snmp =>
    have huser : Snmp.username r' = Snmp.username r :=
      text_alike h hr hr' (List.mem_of_getElem? (i := 6) rfl) (by decide)
    have hauth : Snmp.authPassphrase r' = "" ↔ Snmp.authPassphrase r = "" :=
      secret_alike h hr hr' (List.mem_of_getElem? (i := 8) rfl)
    have hpriv : Snmp.privPassphrase r' = "" ↔ Snmp.privPassphrase r = "" :=
      secret_alike h hr hr' (List.mem_of_getElem? (i := 10) rfl)
    change Snmp.missing? r' = Snmp.missing? r
    simp only [Snmp.missing?, huser, ne_eq, hauth, hpriv]

end Records

theorem keyed_error_alike {e : Failure} (he : k.keyed s = .error e) : k.keyed t = .error e := by
  unfold keyed at he ⊢
  cases hs : k.schema.materialize s with
  | error mismatch =>
    rw [hs] at he
    rw [materialize_error_alike h hs]
    exact he
  | ok r =>
    obtain ⟨r', hr'⟩ := exists_materialize_alike h hs
    rw [hs] at he
    rw [hr']
    dsimp only at he ⊢
    rw [naturalKey_alike h hs hr']
    split at he
    · next hempty => rw [if_pos hempty, ← he]
    · next hne =>
      split at he
      · cases he
      · next hsegment => rw [if_neg hne, if_neg hsegment, ← he]

/-- Records of two such states have one natural key, and lack the same field. -/
theorem exists_keyed_alike (hr : k.keyed s = .ok r) : ∃ r', k.keyed t = .ok r' ∧
    k.schema.naturalKey r' = k.schema.naturalKey r ∧
    k.schema.missing? r' = k.schema.missing? r := by
  obtain ⟨hs, hne, hsegment⟩ := keyed_eq_ok_iff.1 hr
  obtain ⟨r', ht⟩ := exists_materialize_alike h hs
  have hkey := naturalKey_alike h hs ht
  rw [← hkey] at hne hsegment
  exact ⟨r', keyed_eq_ok_iff.2 ⟨ht, hne, hsegment⟩, hkey, missing?_alike h hs ht⟩

theorem writable_error_alike {e : Failure} (he : k.writable s = .error e) :
    k.writable t = .error e := by
  unfold writable at he ⊢
  cases hs : k.keyed s with
  | error failure =>
    rw [hs] at he
    rw [keyed_error_alike h hs]
    exact he
  | ok r =>
    obtain ⟨r', ht, -, hmissing⟩ := exists_keyed_alike h hs
    rw [hs] at he
    rw [ht]
    dsimp only at he ⊢
    rw [hmissing]
    cases hm : k.schema.missing? r with
    | none =>
      rw [hm] at he
      cases he
    | some field =>
      rw [hm] at he
      cases he
      rfl

theorem exists_writable_alike (hr : k.writable s = .ok r) : ∃ r', k.writable t = .ok r' ∧
    k.schema.naturalKey r' = k.schema.naturalKey r := by
  obtain ⟨hs, hnone⟩ := writable_eq_ok_iff.1 hr
  obtain ⟨r', ht, hkey, hmissing⟩ := exists_keyed_alike h hs
  exact ⟨r', writable_eq_ok_iff.2 ⟨ht, hmissing.trans hnone⟩, hkey⟩

end Alike

/-- A document that says nothing about the secrets of its kind. -/
def Silent : (k : Kind) → k.schema.Document → Prop
  | .snmp => fun (d : SnmpDocument) =>
    ∀ user ∈ d.v3, user.authPassphrase = "" ∧ user.privPassphrase = ""
  | .license => fun (d : LicenseDocument) => d.key = ""
  | .node | .cpuLimits | .ioLimits => fun _ => True

theorem isEmpty_store_of_silent {d : k.schema.Document} (hd : k.Silent d)
    {f : Field k.schema.Record} (hf : f ∈ k.fields) (hx : f.key ∈ k.secretKeys)
    (key : String) : (f.store (k.schema.ofDocument key d)).isEmpty = true := by
  revert hx f
  cases k with
  | node | cpuLimits | ioLimits =>
    intro f _ hx
    cases hx
  | snmp =>
    have hempty : (Snmp.ofDocument key d).authPassphrase = "" ∧
        (Snmp.ofDocument key d).privPassphrase = "" := by
      unfold Snmp.ofDocument
      cases hv3 : SnmpDocument.v3 d with
      | none => exact ⟨rfl, rfl⟩
      | some user => exact hd user hv3
    change ∀ f ∈ Snmp.fields, _ → (f.store (Snmp.ofDocument key d)).isEmpty = true
    simp [Snmp.fields, secretKeys, Field.plain, Field.blocks, Field.store, toValue, hempty]
  | license =>
    have hempty : (License.ofDocument key d).licenseKey = "" := hd
    change ∀ f ∈ License.fields, _ → (f.store (License.ofDocument key d)).isEmpty = true
    simp [License.fields, secretKeys, Field.plain, Field.store, toValue, hempty]

/-- Where states agree, they agree when the same document has been taken over. -/
theorem get?_refreshed_congr {x : String} (h : s.get? x = t.get? x) (key : String)
    (d : k.schema.Document) : (k.refreshed key d s).get? x = (k.refreshed key d t).get? x := by
  by_cases hx : x ∈ k.keys
  · obtain ⟨f, hf, rfl⟩ := mem_keys.1 hx
    by_cases hsecret : f.key ∈ k.secretKeys
    · rw [get?_refreshed_secret k key d s hf hsecret, get?_refreshed_secret k key d t hf hsecret, h]
    · rw [get?_refreshed_mapped k key d s hf hsecret, get?_refreshed_mapped k key d t hf hsecret]
  · rw [get?_refreshed_unmapped k key d s hx, get?_refreshed_unmapped k key d t hx, h]

/-- A secret stays where the document is silent. -/
theorem get?_refreshed_of_silent {d : k.schema.Document} (hd : k.Silent d) {x a : String}
    (hx : x ∈ k.secretKeys) (ha : a ≠ "") (hs : s.get? x = some (.string a)) (key : String) :
    (k.refreshed key d s).get? x = some (.string a) := by
  have hne : (Value.string a).isEmpty = false := by simp [Value.isEmpty, ha]
  exact get?_refreshed_of_isEmpty k key d s hx hs hne fun f hf hf' =>
    isEmpty_store_of_silent hd hf hf' key

section Refreshed
variable {d : k.schema.Document} (hd : k.Silent d) (h : s.Alike k.secretKeys t) (key : String)
include hd h

/-- A document that tells no secrets leaves two such states alike. -/
theorem refreshed_alike : (k.refreshed key d s).Alike k.secretKeys (k.refreshed key d t) where
  id := rfl
  get? x := by
    rcases h.get? x with hsame | ⟨hx, a, b, ha, hb, hs, ht⟩
    · exact .inl (get?_refreshed_congr hsame key d)
    · exact .inr ⟨hx, a, b, ha, hb, get?_refreshed_of_silent hd hx ha hs key,
        get?_refreshed_of_silent hd hx hb ht key⟩

/-- Whether anything has changed does not depend on the secrets either. -/
theorem same_refreshed_alike :
    (k.refreshed key d s).same s = (k.refreshed key d t).same t := by
  rw [Bool.eq_iff_iff, DeclaredState.same_iff, DeclaredState.same_iff, h.id]
  refine and_congr Iff.rfl (forall_congr' fun x => ?_)
  rcases h.get? x with hsame | ⟨hx, a, b, ha, hb, hs, ht⟩
  · rw [get?_refreshed_congr hsame key d, hsame]
  · rw [get?_refreshed_of_silent hd hx ha hs key, get?_refreshed_of_silent hd hx hb ht key, hs, ht]
    exact iff_of_true (Value.sameAnswer_refl _) (Value.sameAnswer_refl _)

end Refreshed
end Kind

/-- What a client makes of a reply tells nothing of the body that it sent. -/
theorem Client.answered_congr (c : Client) (method : Method) (path : String)
    (body body' : Option (List UInt8)) (reply : Reply) :
    (c.answered method path body reply).mapError ApiError.message =
      (c.answered method path body' reply).mapError ApiError.message := by
  cases reply with
  | lost reason => rfl
  | response response =>
    simp only [answered, classify]
    split
    · rfl
    · split
      · rfl
      · split <;> rfl

/-- Two steps that come to the same, as far as it can be seen, and leave states that agree but for
these secrets. -/
structure Step.Alike {α : Type} (secrets : List String) (a b : Step α) : Prop where
  result : a.1.mapError Failure.message = b.1.mapError Failure.message
  state : a.2.Alike secrets b.2

theorem Kind.afterPut_alike {k : Kind} {c : Client} {outcome : ApplyResult} {s t : DeclaredState}
    {r r' : k.schema.Record} (h : s.Alike k.secretKeys t)
    (hkey : k.schema.naturalKey r' = k.schema.naturalKey r) (reply : Reply) :
    (k.afterPut c outcome r s reply).Alike k.secretKeys (k.afterPut c outcome r' t reply) := by
  have hanswer := c.answered_congr .put (k.path (k.schema.naturalKey r)) (some (k.payload r))
    (some (k.payload r')) reply
  revert hanswer
  unfold afterPut
  rw [hkey]
  cases c.answered .put (k.path (k.schema.naturalKey r)) (some (k.payload r)) reply <;>
    cases c.answered .put (k.path (k.schema.naturalKey r)) (some (k.payload r')) reply
  case ok.ok => exact fun _ => ⟨rfl, h.setId _⟩
  case ok.error | error.ok => exact nofun
  case error.error e e' =>
    intro hmessage
    have hsame : e.message = e'.message := Except.error.inj hmessage
    exact ⟨congrArg Except.error hsame, h⟩

end Reconciler
