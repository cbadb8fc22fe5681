import Reconciler.Proofs.Resource.Kinds

/-! What a remote document makes of a declared state: the mapped keys follow the document, secrets
stay where the document is silent, and the state still yields a record. -/
namespace Reconciler

@[simp] theorem Value.isEmpty_string {t : String} : (Value.string t).isEmpty = true ↔ t = "" := by
  simp [Value.isEmpty]

/-- The value of a secret: the server's if it says something, else the declared one if that says
something, else the empty text. -/
def preferred (server : Value) (declared : Option Value) : Value :=
  if server.isEmpty then (declared.filter fun v => !v.isEmpty).getD (.string "") else server

def firstText (a b : String) : String := if a = "" then b else a

theorem preferred_string (a b : String) :
    preferred (.string a) (some (.string b)) = .string (firstText a b) := by
  by_cases ha : a = ""
  · by_cases hb : b = "" <;> simp [preferred, firstText, Option.filter, Value.isEmpty, ha, hb]
  · simp [preferred, firstText, Value.isEmpty, ha]

@[simp] theorem firstText_empty (b : String) : firstText "" b = b := if_pos rfl

@[simp] theorem firstText_of_empty (a : String) : firstText a "" = a := by
  by_cases ha : a = "" <;> simp [firstText, ha]

@[simp] theorem firstText_self (a : String) : firstText a a = a := ite_self a

theorem firstText_ne_empty {a b : String} : firstText a b ≠ "" ↔ a ≠ "" ∨ b ≠ "" := by
  by_cases ha : a = "" <;> simp [firstText, ha]

namespace Snmp

def keepSecrets (declared served : Snmp) : Snmp :=
  { served with
    authPassphrase := firstText served.authPassphrase declared.authPassphrase
    privPassphrase := firstText served.privPassphrase declared.privPassphrase }

theorem store_keepSecrets (declared served : Snmp) :
    ∀ f ∈ fields, f.store (keepSecrets declared served) =
      if f.key ∈ Kind.snmp.secretKeys then preferred (f.store served) (some (f.store declared))
      else f.store served := by
  simp [fields, Kind.secretKeys, Field.plain, Field.blocks, Field.store, keepSecrets, toValue,
    preferred_string]

end Snmp

namespace License

def keepSecrets (declared served : License) : License :=
  { served with licenseKey := firstText served.licenseKey declared.licenseKey }

theorem store_keepSecrets (declared served : License) :
    ∀ f ∈ fields, f.store (keepSecrets declared served) =
      if f.key ∈ Kind.license.secretKeys then preferred (f.store served) (some (f.store declared))
      else f.store served := by
  simp [fields, Kind.secretKeys, Field.plain, Field.store, keepSecrets, toValue, preferred_string]

end License

namespace Kind

/-- Putting secrets back touches no other key. -/
theorem get?_restore_of_not_mem {secrets : List (String × Value)} {x : String}
    (hx : x ∉ secrets.map Prod.fst) (s : DeclaredState) :
    (restore secrets s).get? x = s.get? x := by
  induction secrets generalizing s with
  | nil => rfl
  | cons e secrets ih =>
    rw [List.map_cons, List.mem_cons, not_or] at hx
    rw [restore, List.foldl_cons]
    refine (ih hx.2 _).trans ?_
    split
    · rw [DeclaredState.get?_set, if_neg hx.1]
    · rfl

/-- A secret is put back where there is none, or an empty one. -/
theorem get?_restore_of_mem {secrets : List (String × Value)} {x : String} {v : Value}
    (hd : (secrets.map Prod.fst).Nodup) (h : (x, v) ∈ secrets) (s : DeclaredState) :
    (restore secrets s).get? x =
      if ((s.get? x).map Value.isEmpty).getD true then some v else s.get? x := by
  induction secrets generalizing s with
  | nil => cases h
  | cons e secrets ih =>
    rw [List.map_cons, List.nodup_cons] at hd
    rw [restore, List.foldl_cons]
    rcases List.mem_cons.1 h with rfl | h
    · refine (get?_restore_of_not_mem hd.1 _).trans ?_
      split
      · rw [DeclaredState.get?_set, if_pos rfl]
      · rfl
    · have hne : x ≠ e.1 := fun he => hd.1 (he ▸ List.mem_map_of_mem h)
      refine (ih hd.2 h _).trans ?_
      split <;> simp [hne]

/-- Secrets are the values under secret keys that say something. -/
theorem mem_secrets {k : Kind} {s : DeclaredState} {x : String} {v : Value} :
    (x, v) ∈ k.secrets s ↔ x ∈ k.secretKeys ∧ s.get? x = some v ∧ v.isEmpty = false := by
  simp only [secrets, List.mem_filterMap, Option.map_eq_some_iff, Option.filter_eq_some_iff,
    Prod.mk.injEq]
  constructor
  · rintro ⟨y, hy, w, ⟨hw, hne⟩, rfl, rfl⟩
    exact ⟨hy, hw, by simpa using hne⟩
  · rintro ⟨hx, hv, hne⟩
    exact ⟨x, hx, v, ⟨hv, by simpa using hne⟩, rfl, rfl⟩

theorem secrets_nodup (k : Kind) (s : DeclaredState) : ((k.secrets s).map Prod.fst).Nodup := by
  rw [List.Nodup, List.pairwise_map, secrets, List.pairwise_filterMap]
  refine k.secretKeys_nodup.imp ?_
  intro x y hne e he e' he'
  obtain ⟨v, _, rfl⟩ := Option.map_eq_some_iff.1 he
  obtain ⟨v', _, rfl⟩ := Option.map_eq_some_iff.1 he'
  exact hne

/-- Whatever field declares a secret, it stores a text. -/
theorem store_secret {k : Kind} {f : Field k.schema.Record} (hf : f ∈ k.fields)
    (hx : f.key ∈ k.secretKeys) :
    ∃ (get : k.schema.Record → String) (set : k.schema.Record → String → k.schema.Record),
      Field.plain f.key get set ∈ k.fields ∧ ∀ r, f.store r = .string (get r) := by
  obtain ⟨get, set, hg⟩ := k.secret_mem hx
  refine ⟨get, set, hg, fun r => ?_⟩
  -- both fields write under one key of one projection, so they write the same
  have hproject := get?_project_of_mem hf r .empty
  have hplain := get?_project_of_mem hg r .empty
  exact Option.some.inj (hproject.symm.trans hplain)

section Refreshed
variable (k : Kind) (key : String) (d : k.schema.Document) (s : DeclaredState)

private theorem get?_refreshed_of_not_secret {x : String} (hx : x ∉ k.secretKeys) :
    (k.refreshed key d s).get? x =
      (k.schema.project (k.schema.ofDocument key d) s).get? x := by
  refine get?_restore_of_not_mem ?_ _
  intro hmem
  obtain ⟨⟨y, v⟩, he, rfl⟩ := List.mem_map.1 hmem
  exact hx (mem_secrets.1 he).1

/-- Keys that the kind does not map keep what they hold. -/
theorem get?_refreshed_unmapped {x : String} (hx : x ∉ k.keys) :
    (k.refreshed key d s).get? x = s.get? x := by
  have hs : x ∉ k.secretKeys := by
    intro hmem
    obtain ⟨get, set, hf⟩ := k.secret_mem hmem
    exact hx (mem_keys_of_field hf)
  rw [get?_refreshed_of_not_secret k key d s hs]
  exact get?_project_of_not_mem hx _ s

/-- A mapped key that is no secret takes what the document says. -/
theorem get?_refreshed_mapped {f : Field k.schema.Record} (hf : f ∈ k.fields)
    (hx : f.key ∉ k.secretKeys) :
    (k.refreshed key d s).get? f.key = some (f.store (k.schema.ofDocument key d)) := by
  rw [get?_refreshed_of_not_secret k key d s hx]
  exact get?_project_of_mem hf _ s

/-- A secret takes what the document says, unless that is nothing. -/
theorem get?_refreshed_secret {f : Field k.schema.Record} (hf : f ∈ k.fields)
    (hx : f.key ∈ k.secretKeys) :
    (k.refreshed key d s).get? f.key =
      some (preferred (f.store (k.schema.ofDocument key d)) (s.get? f.key)) := by
  have server := get?_project_of_mem hf (k.schema.ofDocument key d) s
  cases hv : (s.get? f.key).filter fun v => !v.isEmpty with
  | some v =>
    have hmem : (f.key, v) ∈ k.secrets s := by
      obtain ⟨hget, hne⟩ := Option.filter_eq_some_iff.1 hv
      exact mem_secrets.2 ⟨hx, hget, by simpa using hne⟩
    have hr : (k.refreshed key d s).get? f.key = _ :=
      get?_restore_of_mem (k.secrets_nodup s) hmem _
    rw [hr, server, preferred, hv, Option.map_some, Option.getD_some, Option.getD_some]
    split <;> rfl
  | none =>
    have hmem : f.key ∉ (k.secrets s).map Prod.fst := by
      intro hmem
      obtain ⟨⟨x, v⟩, he, hxe⟩ := List.mem_map.1 hmem
      obtain ⟨_, hget, hne⟩ := mem_secrets.1 he
      change x = f.key at hxe
      subst hxe
      simp [hget, hne, Option.filter] at hv
    have hr : (k.refreshed key d s).get? f.key = _ := get?_restore_of_not_mem hmem _
    rw [hr, server, preferred, hv]
    obtain ⟨get, _, _, hstore⟩ := store_secret hf hx
    by_cases hempty : get (k.schema.ofDocument key d) = "" <;>
      simp [hstore, hempty, Value.isEmpty]

/-- A secret that says something stays where the document says nothing. -/
theorem get?_refreshed_of_isEmpty {x : String} {v : Value} (hx : x ∈ k.secretKeys)
    (hv : s.get? x = some v) (hne : v.isEmpty = false)
    (hempty : ∀ f ∈ k.fields, f.key ∈ k.secretKeys →
      (f.store (k.schema.ofDocument key d)).isEmpty = true) :
    (k.refreshed key d s).get? x = some v := by
  obtain ⟨get, set, hf⟩ := k.secret_mem hx
  have hget := get?_refreshed_secret k key d s hf hx
  change (k.refreshed key d s).get? x = some (preferred _ (s.get? x)) at hget
  rw [hget, preferred, if_pos (hempty _ hf hx), hv]
  simp [Option.filter, hne]

end Refreshed

/-- A record under the secrets of another wherever it has none of its own. -/
def keepSecrets : (k : Kind) → (declared served : k.schema.Record) → k.schema.Record
  | .snmp => Snmp.keepSecrets
  | .license => License.keepSecrets
  | .node | .cpuLimits | .ioLimits => fun _ served => served

theorem store_keepSecrets (k : Kind) (declared served : k.schema.Record) :
    ∀ f ∈ k.fields, f.store (k.keepSecrets declared served) =
      if f.key ∈ k.secretKeys then preferred (f.store served) (some (f.store declared))
      else f.store served := by
  cases k with
  | node | cpuLimits | ioLimits => exact fun f _ => rfl
  | snmp => exact Snmp.store_keepSecrets declared served
  | license => exact License.store_keepSecrets declared served

/-- Under a secret key stands the text of the record, or nothing where the record has none. -/
theorem preferred_get? {k : Kind} {s : DeclaredState} {r : k.schema.Record}
    (hr : k.schema.materialize s = .ok r) {f : Field k.schema.Record} (hf : f ∈ k.fields)
    (hx : f.key ∈ k.secretKeys) (server : Value) :
    preferred server (s.get? f.key) = preferred server (some (f.store r)) := by
  obtain ⟨get, set, hg, hstore⟩ := store_secret hf hx
  have hread : (Reading.ofState s).get String f.key = .ok (get r) :=
    (k.materialize_eq_ok_iff s r).1 hr _ hg
  rcases Reading.get?_of_get hread with hs | ⟨hs, hzero⟩
  · rw [hs, hstore]
    rfl
  · change get r = "" at hzero
    simp [hs, hstore, hzero, preferred, Option.filter, Value.isEmpty]

/-- After a reading the state yields the record of the server, under the secrets that the server
does not tell. -/
theorem materialize_refreshed {k : Kind} {s : DeclaredState} {r : k.schema.Record}
    (hr : k.schema.materialize s = .ok r) (key : String) (d : k.schema.Document) :
    k.schema.materialize (k.refreshed key d s) =
      .ok (k.keepSecrets r (k.schema.ofDocument key d)) := by
  refine materialize_of_get? fun f hf => ?_
  rw [store_keepSecrets k r _ f hf]
  split
  · next hx => rw [get?_refreshed_secret k key d s hf hx, preferred_get? hr hf hx]
  · next hx => rw [get?_refreshed_mapped k key d s hf hx]

end Kind
end Reconciler
