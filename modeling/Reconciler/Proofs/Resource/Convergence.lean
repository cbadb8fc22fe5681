import Mathlib.Data.List.Basic
import Reconciler.Proofs.Api.DocumentServer
import Reconciler.Proofs.Resource.Identities
import Reconciler.Proofs.Resource.Wire
import Reconciler.Proofs.Resource.Writing

/-! What a creation has stored comes back when it is read, and when it is adopted by its identity:
the record that was declared, less what only the server says. -/
namespace Reconciler

/-- A text that is absent or empty reads as the empty text. -/
theorem Reading.text_eq_empty {s : DeclaredState} {key text : String}
    (hread : (ofState s).get String key = .ok text)
    (h : s.get? key = none ∨ s.get? key = some (.string "")) : text = "" := by
  rw [get_ofState] at hread
  rcases h with h | h <;> rw [h] at hread <;> exact (Except.ok.inj hread).symm

namespace Snmp

theorem keepSecrets_carried (r : Snmp) : keepSecrets r r.carried = r.carried := by
  unfold carried
  split <;> simp [keepSecrets]

theorem keepSecrets_of_no_secret {declared : Snmp} (hauth : declared.authPassphrase = "")
    (hpriv : declared.privPassphrase = "") (served : Snmp) :
    keepSecrets declared served = served := by
  simp [keepSecrets, hauth, hpriv]

end Snmp

namespace License

theorem keepSecrets_declared (r : License) : keepSecrets r r.declared = r.declared := by
  simp [keepSecrets, declared]

theorem keepSecrets_of_no_secret {declared : License} (hkey : declared.licenseKey = "")
    (served : License) : keepSecrets declared served = served := by
  simp [keepSecrets, hkey]

end License

namespace Kind
open DocumentServer (pathOf)

/-- A record keeps its secrets when it is read back over its own state. -/
theorem keepSecrets_carried (k : Kind) (r : k.schema.Record) :
    k.keepSecrets r (k.carried r) = k.carried r := by
  cases k with
  | snmp => exact Snmp.keepSecrets_carried r
  | license => exact License.keepSecrets_declared r
  | node | cpuLimits | ioLimits => rfl

/-- Where no secret is declared, the server's stand. -/
theorem keepSecrets_defaults (k : Kind) (key : String) (served : k.schema.Record) :
    k.keepSecrets (k.schema.ofDocument key k.schema.defaults) served = served := by
  cases k with
  | snmp => exact Snmp.keepSecrets_of_no_secret rfl rfl served
  | license => exact License.keepSecrets_of_no_secret rfl served
  | node | cpuLimits | ioLimits => rfl

def bare (k : Kind) (key : String) : DeclaredState :=
  DeclaredState.empty.set k.naturalKey (.string key)

theorem materialize_bare (k : Kind) (key : String) :
    k.schema.materialize (k.bare key) = .ok (k.schema.ofDocument key k.schema.defaults) := by
  cases k <;> rfl

theorem keyed_bare {k : Kind} {key : String} (hne : key ≠ "") (hseg : isPathSegment key = true) :
    k.keyed (k.bare key) = .ok (k.schema.ofDocument key k.schema.defaults) := by
  refine keyed_eq_ok_iff.2 ⟨k.materialize_bare key, ?_, ?_⟩
  · simpa using hne
  · simpa using hseg

/-- Adopting from scratch reads the state that declares the natural key alone. -/
theorem adopt_empty (k : Kind) (c : Client) {key : String} (hne : key ≠ "") :
    k.adopt c (identity k.tag key) .empty = k.read c (k.bare key) := by
  rw [adopt, parseIdentity?_identity _ hne]
  rfl

/-- The state names a user, or no protocol that would need one. -/
def NamesUser : Kind → DeclaredState → Prop
  | .snmp, s => (∃ user, user ≠ "" ∧ s.get? "username" = some (.string user)) ∨
      ∀ x ∈ ["auth_protocol", "priv_protocol"], s.get? x = none ∨ s.get? x = some (.string "")
  | .node, _ | .cpuLimits, _ | .ioLimits, _ | .license, _ => True

theorem not_losesProtocol {k : Kind} {s : DeclaredState} {r : k.schema.Record}
    (hr : k.schema.materialize s = .ok r) (hnamed : k.NamesUser s) : ¬k.LosesProtocol r := by
  cases k with
  | node | cpuLimits | ioLimits | license => exact id
  | snmp =>
    have hread := (snmp.materialize_eq_ok_iff s r).1 hr
    have huser : (Reading.ofState s).get String "username" = .ok (Snmp.username r) :=
      hread _ (List.mem_of_getElem? (i := 6) rfl)
    have hauth : (Reading.ofState s).get String "auth_protocol" = .ok (Snmp.authProtocol r) :=
      hread _ (List.mem_of_getElem? (i := 7) rfl)
    have hpriv : (Reading.ofState s).get String "priv_protocol" = .ok (Snmp.privProtocol r) :=
      hread _ (List.mem_of_getElem? (i := 9) rfl)
    rintro ⟨hnone, hprotocol⟩
    rcases hnamed with ⟨user, hne, hget⟩ | hempty
    · rw [Reading.get_of_get? (α := String) hget, hnone] at huser
      exact hne (Except.ok.inj huser)
    · rcases hprotocol with hne | hne
      · exact hne (Reading.text_eq_empty hauth (hempty _ (.head _)))
      · exact hne (Reading.text_eq_empty hpriv (hempty _ (.tail _ (.head _))))

/-- A call observes its resource on a server, and leaves a state with an identity and a record. -/
structure Finds (k : Kind) (call : Call (Step Presence)) (w : DocumentServer) (id : String)
    (r : k.schema.Record) (s' : DeclaredState) : Prop where
  observed : (call.run DocumentServer.server w).1 = (.ok .present, s')
  id : s'.id = some id
  record : k.schema.materialize s' = .ok r

section Run
variable {k : Kind} {c : Client} {s : DeclaredState} {w : DocumentServer} {r : k.schema.Record}

/-- A document server keeps what a creation sends. -/
theorem run_create (hw : k.writable s = .ok r)
    (hfree : w.Unscripted (pathOf (c.baseUrl ++ k.path (k.schema.naturalKey r)))) :
    ((k.create c s).run DocumentServer.server w).1 =
        (.ok .created, s.setId (identity k.tag (k.schema.naturalKey r))) ∧
      ((k.create c s).run DocumentServer.server w).2.scripts = w.scripts ∧
      ((k.create c s).run DocumentServer.server w).2.documents.get?
        (pathOf (c.baseUrl ++ k.path (k.schema.naturalKey r))) = some (k.payload r) := by
  have heffect := DocumentServer.effect_put hfree (k.payload r)
  rw [create, write_of_writable hw]
  refine ⟨?_, DocumentServer.scripts_run_exchange .., ?_⟩
  · rw [DocumentServer.run_exchange_fst, heffect]
    exact afterPut_stored
  · rw [DocumentServer.get?_run_exchange, heffect]
    exact if_pos rfl

/-- A reading takes over what a document server keeps at the path of the resource. -/
theorem run_read {declared : k.schema.Record} {d : k.schema.Document}
    (hk : k.keyed s = .ok declared)
    (hfree : w.Unscripted (pathOf (c.baseUrl ++ k.path (k.schema.naturalKey declared))))
    (hstored : w.documents.get? (pathOf (c.baseUrl ++ k.path (k.schema.naturalKey declared))) =
      some (Client.payload (k.schema.encode d))) :
    ((k.read c s).run DocumentServer.server w).1 =
      (.ok .present, k.refreshed (k.schema.naturalKey declared) d s) := by
  rw [read_of_keyed hk, DocumentServer.run_exchange_fst, DocumentServer.effect_get hfree hstored]
  exact afterGet_found (k.document?_payload d)

/-- Reading a state over the stored document of a record, under which it declares the same secrets
or none, makes it a state of that record. -/
theorem finds_read {declared : k.schema.Record} (hk : k.keyed s = .ok declared)
    (hkey : k.schema.naturalKey declared = k.schema.naturalKey r)
    (hsecrets : k.keepSecrets declared (k.overWire r) = k.overWire r)
    (hfree : w.Unscripted (pathOf (c.baseUrl ++ k.path (k.schema.naturalKey r))))
    (hstored : w.documents.get? (pathOf (c.baseUrl ++ k.path (k.schema.naturalKey r))) =
      some (k.payload r)) :
    k.Finds (k.read c s) w (identity k.tag (k.schema.naturalKey r)) (k.overWire r)
      (k.refreshed (k.schema.naturalKey r) (k.schema.toDocument r) s) where
  observed := by
    rw [← hkey] at hfree hstored ⊢
    exact run_read hk hfree hstored
  id := rfl
  record := by
    rw [materialize_refreshed (keyed_eq_ok_iff.1 hk).1]
    exact congrArg Except.ok hsecrets

end Run

/-- Whatever a creation stores comes back whole: reading the created state and adopting the
identity from scratch both find the resource, and the record they find is the declared one without
what only the server says. Only the protocols of a user without a name would not come back. -/
theorem finds_after_create {k : Kind} {c : Client} {s : DeclaredState} {w : DocumentServer}
    {key : String} (hkey : k.HasKey s key) (hnamed : k.NamesUser s)
    (hfree : w.Unscripted (pathOf (c.baseUrl ++ k.path key)))
    (hcreate : ((k.create c s).run DocumentServer.server w).1.1 = .ok .created) :
    ∃ r s₁ w₁, k.schema.materialize s = .ok r ∧
      (k.create c s).run DocumentServer.server w = ((.ok .created, s₁), w₁) ∧
      s₁ = s.setId (identity k.tag key) ∧
      w₁.documents.get? (pathOf (c.baseUrl ++ k.path key)) =
        some (Utf8.encode (k.schema.encode (k.schema.toDocument r)).pretty) ∧
      (∃ s₂, k.Finds (k.read c s₁) w₁ (identity k.tag key) (k.declared r) s₂ ∧
        ∀ x, x ∉ k.keys → s₂.get? x = s.get? x) ∧
      ∃ s₃, k.Finds (k.adopt c (identity k.tag key) .empty) w₁ (identity k.tag key)
        (k.declared r) s₃ := by
  cases hw : k.writable s with
  | error e =>
    rw [create, write_of_error hw] at hcreate
    cases hcreate
  | ok r =>
    obtain ⟨hkeyed, hmissing⟩ := writable_eq_ok_iff.1 hw
    obtain ⟨r', hkeyed', rfl⟩ := hasKey_iff.1 hkey
    obtain rfl : r' = r := Except.ok.inj (hkeyed'.symm.trans hkeyed)
    obtain ⟨hmaterialize, hne, hseg⟩ := keyed_eq_ok_iff.1 hkeyed
    obtain ⟨hcreated, hscripts, hstored⟩ := run_create hw hfree
    have hback : k.overWire r' = k.declared r' :=
      (overWire_eq_carried_iff.2 hmissing).trans
        (carried_eq_declared_iff.2 (not_losesProtocol hmaterialize hnamed))
    have hfree₁ : ((k.create c s).run DocumentServer.server w).2.Unscripted
        (pathOf (c.baseUrl ++ k.path (k.schema.naturalKey r'))) := by
      intro method
      rw [hscripts, hfree]
    have hkeyed₁ : k.keyed (s.setId (identity k.tag (k.schema.naturalKey r'))) = .ok r' := by
      rw [keyed_setId, hkeyed]
    have hkept : k.keepSecrets r' (k.overWire r') = k.overWire r' := by
      rw [overWire_eq_carried_iff.2 hmissing, keepSecrets_carried]
    have hread := finds_read hkeyed₁ rfl hkept hfree₁ hstored
    have hadopt := finds_read (keyed_bare hne hseg) (k.naturalKey_ofDocument ..)
      (k.keepSecrets_defaults ..) hfree₁ hstored
    rw [hback] at hread hadopt
    rw [← adopt_empty k c hne] at hadopt
    refine ⟨r', _, _, hmaterialize, Prod.ext hcreated rfl, rfl, hstored, ⟨_, hread, ?_⟩, _, hadopt⟩
    intro x hx
    exact get?_refreshed_unmapped k _ _ _ hx

/-- The agent of a named user comes back under the identity it was given. -/
theorem finds_after_create_monitored :
    ∃ s₁ w₁ s₃, (snmp.create .blank (snmp.schema.project Snmp.monitored .empty)).run
        DocumentServer.server .empty = ((.ok .created, s₁), w₁) ∧
      snmp.Finds (snmp.adopt .blank "snmp_abc123" .empty) w₁ "snmp_abc123" Snmp.monitored s₃ := by
  have huser : (snmp.schema.project Snmp.monitored .empty).get? "username" =
      some (.string "monitor") :=
    get?_project_of_mem (k := snmp) (List.mem_of_getElem? (i := 6) rfl) Snmp.monitored .empty
  have hfree : DocumentServer.empty.Unscripted
      (pathOf (Client.blank.baseUrl ++ snmp.path "abc123")) := fun _ => rfl
  have hcreate := congrArg Prod.fst (run_create writable_monitored hfree).1
  obtain ⟨r, s₁, w₁, hr, hrun, -, -, -, s₃, hadopt⟩ :=
    finds_after_create (hasKey_iff.2 ⟨_, keyed_monitored, rfl⟩)
      (.inl ⟨"monitor", by decide, huser⟩) hfree hcreate
  obtain rfl := Except.ok.inj
    (hr.symm.trans (snmp.materialize_project Snmp.monitored .empty))
  exact ⟨s₁, w₁, s₃, hrun, hadopt⟩

end Kind
end Reconciler
