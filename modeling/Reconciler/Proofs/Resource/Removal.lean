import Reconciler.Proofs.Resource.Convergence
import Reconciler.Proofs.Resource.Mapping

/-! Deleting twice is deleting once. A resource that can be removed is gone, and one that cannot
stands at its defaults, whether there was a document before or not. -/
namespace Reconciler.Kind
open DocumentServer (pathOf exchangeAt)

def removal (k : Kind) : Method × Option (List UInt8) :=
  match k.deletePolicy with
  | .remote => (.delete, none)
  | .reset => (.put, some (Client.payload (k.schema.encode k.schema.defaults)))

/-- What is there once a resource has been deleted. -/
def leftover (k : Kind) : Option (List UInt8) :=
  match k.deletePolicy with
  | .remote => none
  | .reset => some (Client.payload (k.schema.encode k.schema.defaults))

def removed (k : Kind) (stored : Option (List UInt8)) : ApplyResult :=
  match k.deletePolicy with
  | .remote => if stored.isSome then .removed else .noChange
  | .reset => .removed

section Delete
variable {k : Kind} {c : Client} {s : DeclaredState} {w : DocumentServer} {r : k.schema.Record}

def afterDelete (k : Kind) (c : Client) (key : String) (s : DeclaredState) (reply : Reply) :
    Step ApplyResult :=
  match c.answered k.removal.1 (k.path key) k.removal.2 reply with
  | .ok _ => (.ok .removed, s.clearId)
  | .error e => if e.isNotFound then (.ok .noChange, s.clearId) else (.error (.api e), s)

theorem delete_of_keyed (hr : k.keyed s = .ok r) :
    k.delete c s =
      .exchange (c.request k.removal.1 (k.path (k.schema.naturalKey r)) k.removal.2)
        (k.afterDelete c (k.schema.naturalKey r) s) := by
  have hsent (path : String) : (match k.deletePolicy with
      | .remote => c.delete path
      | .reset => c.put path (k.schema.encode k.schema.defaults)) =
      .exchange (c.request k.removal.1 path k.removal.2) fun reply =>
        (c.answered k.removal.1 path k.removal.2 reply).map fun _ => () := by
    unfold removal
    cases k.deletePolicy <;> rfl
  unfold delete
  rw [hr]
  refine (congrArg (Call.map _) (hsent _)).trans ?_
  refine congrArg (Call.exchange _) (funext fun reply => ?_)
  unfold afterDelete
  beta_reduce
  cases c.answered k.removal.1 (k.path (k.schema.naturalKey r)) k.removal.2 reply <;> rfl

theorem afterDelete_exchangeAt (key : String) (stored : Option (List UInt8)) :
    k.afterDelete c key s (exchangeAt none stored k.removal.1 k.removal.2).1 =
      (.ok (k.removed stored), s.clearId) := by
  unfold afterDelete removal removed
  cases k.deletePolicy with
  | remote => cases stored <;> rfl
  | reset => rfl

theorem exchangeAt_removal (k : Kind) (stored : Option (List UInt8)) :
    (exchangeAt none stored k.removal.1 k.removal.2).2 = k.leftover := by
  unfold removal leftover
  cases k.deletePolicy with
  | remote => cases stored <;> rfl
  | reset => rfl

/-- A document server deletes what is at the path of the resource, and touches nothing else. -/
theorem run_delete (hr : k.keyed s = .ok r)
    (hfree : w.Unscripted (pathOf (c.baseUrl ++ k.path (k.schema.naturalKey r)))) :
    ((k.delete c s).run DocumentServer.server w).1 = (.ok (k.removed
        (w.documents.get? (pathOf (c.baseUrl ++ k.path (k.schema.naturalKey r))))), s.clearId) ∧
      ((k.delete c s).run DocumentServer.server w).2.scripts = w.scripts ∧
      ∀ p, ((k.delete c s).run DocumentServer.server w).2.documents.get? p =
        if p = pathOf (c.baseUrl ++ k.path (k.schema.naturalKey r)) then k.leftover
        else w.documents.get? p := by
  have heffect := DocumentServer.effect_unscripted hfree k.removal.1 k.removal.2
  rw [delete_of_keyed hr]
  refine ⟨?_, DocumentServer.scripts_run_exchange .., fun p => ?_⟩
  · rw [DocumentServer.run_exchange_fst, heffect]
    exact afterDelete_exchangeAt ..
  · rw [DocumentServer.get?_run_exchange, heffect, exchangeAt_removal]
    rfl

/-- Where a document server keeps nothing, a reading finds the resource gone. -/
theorem run_read_missing (hr : k.keyed s = .ok r)
    (hfree : w.Unscripted (pathOf (c.baseUrl ++ k.path (k.schema.naturalKey r))))
    (hmissing : w.documents.get? (pathOf (c.baseUrl ++ k.path (k.schema.naturalKey r))) = none) :
    ((k.read c s).run DocumentServer.server w).1 = (.ok .absent, s.clearId) := by
  rw [read_of_keyed hr, DocumentServer.run_exchange_fst,
    DocumentServer.effect_get_missing hfree hmissing]
  exact afterGet_missing

end Delete

section Defaults
variable {k : Kind} {key : String}

/-- The defaults of a resource are the zeros of its kind, under its own natural key. -/
theorem parts_defaults (k : Kind) (key : String) :
    k.parts (k.schema.ofDocument key k.schema.defaults) =
      (k.naturalKey, .string key) :: k.zeros.tail := by
  cases k <;> rfl

theorem exists_field_of_zero {x : String} {zero : Value} (hx : (x, zero) ∈ k.zeros)
    (hkey : x ≠ k.naturalKey) (key : String) : ∃ f ∈ k.fields, f.key = x ∧
      f.store (k.schema.ofDocument key k.schema.defaults) = zero := by
  have hzeros : k.zeros = (k.naturalKey, .string "") :: k.zeros.tail := by cases k <;> rfl
  have htail : (x, zero) ∈ k.zeros.tail := by
    rw [hzeros] at hx
    exact (List.mem_cons.1 hx).resolve_left fun heq => hkey (congrArg Prod.fst heq)
  refine mem_parts.1 ?_
  rw [parts_defaults]
  exact .tail _ htail

theorem zero_of_secret (k : Kind) : ∀ x ∈ k.secretKeys, (x, .string "") ∈ k.zeros := by
  cases k <;> simp [secretKeys, zeros]

theorem naturalKey_not_secret (k : Kind) : k.naturalKey ∉ k.secretKeys := by
  cases k <;> decide

/-- A state of a resource that stands at its defaults: zeros under all mapped keys but the natural
key, and the secrets of the state it was read over. -/
structure Zeroed (k : Kind) (key : String) (s s' : DeclaredState) : Prop where
  id : s'.id = some (identity k.tag key)
  naturalKey : s'.get? k.naturalKey = some (.string key)
  zero : ∀ x zero, (x, zero) ∈ k.zeros → x ≠ k.naturalKey → x ∉ k.secretKeys →
    s'.get? x = some zero
  secret : ∀ x ∈ k.secretKeys, s'.get? x = some (preferred (.string "") (s.get? x))
  unmapped : ∀ x ∉ k.keys, s'.get? x = s.get? x

theorem zeroed_refreshed (k : Kind) (key : String) (s : DeclaredState) :
    k.Zeroed key s (k.refreshed key k.schema.defaults s) where
  id := rfl
  naturalKey := by
    obtain ⟨set, hf⟩ := k.naturalKey_mem
    refine (get?_refreshed_mapped k key _ s hf k.naturalKey_not_secret).trans ?_
    exact congrArg (fun key => some (Value.string key)) (k.naturalKey_ofDocument ..)
  zero x zero hx hkey hsecret := by
    obtain ⟨f, hf, rfl, rfl⟩ := exists_field_of_zero hx hkey key
    exact get?_refreshed_mapped k key k.schema.defaults s hf hsecret
  secret x hx := by
    have hkey : x ≠ k.naturalKey := fun heq => k.naturalKey_not_secret (heq ▸ hx)
    obtain ⟨f, hf, rfl, hstore⟩ := exists_field_of_zero (k.zero_of_secret x hx) hkey key
    rw [get?_refreshed_secret k key k.schema.defaults s hf hx, hstore]
  unmapped _ hx := get?_refreshed_unmapped k key k.schema.defaults s hx

end Defaults

/-- The resource can be removed. One deletion removes it, if there is anything to remove, and
another finds nothing to do; so does a reading. -/
structure Removes (k : Kind) (c : Client) (key : String) (s : DeclaredState)
    (w w₁ w₂ : DocumentServer) (first second : ApplyResult) : Prop where
  first_eq : first = if (w.documents.get? (pathOf (c.baseUrl ++ k.path key))).isSome then .removed
    else .noChange
  second_eq : second = .noChange
  missing : w₁.documents.get? (pathOf (c.baseUrl ++ k.path key)) = none
  absent : ∀ w' ∈ [w₁, w₂],
    ((k.read c s.clearId).run DocumentServer.server w').1 = (.ok .absent, s.clearId)

/-- The resource can only be reset. Deletions do that whatever there is, and a reading finds it at
its defaults. -/
structure Resets (k : Kind) (c : Client) (key : String) (s : DeclaredState)
    (w₁ w₂ : DocumentServer) (first second : ApplyResult) : Prop where
  first_eq : first = .removed
  second_eq : second = .removed
  stored : ∃ body, w₁.documents.get? (pathOf (c.baseUrl ++ k.path key)) = some body ∧
    k.document? body = some k.schema.defaults
  present : ∀ w' ∈ [w₁, w₂], ∃ s',
    ((k.read c s.clearId).run DocumentServer.server w').1 = (.ok .present, s') ∧
      k.Zeroed key s.clearId s'

section Twice
variable {k : Kind} {c : Client} {s : DeclaredState} {w w₁ w₂ : DocumentServer}
  {r : k.schema.Record}

def After (k : Kind) (c : Client) (key : String) (w : DocumentServer) : Prop :=
  w.Unscripted (pathOf (c.baseUrl ++ k.path key)) ∧
    w.documents.get? (pathOf (c.baseUrl ++ k.path key)) = k.leftover

theorem after_delete (hr : k.keyed s = .ok r)
    (hfree : w.Unscripted (pathOf (c.baseUrl ++ k.path (k.schema.naturalKey r)))) :
    k.After c (k.schema.naturalKey r) ((k.delete c s).run DocumentServer.server w).2 := by
  obtain ⟨-, hscripts, hdocuments⟩ := run_delete (c := c) hr hfree
  refine ⟨fun method => ?_, ?_⟩
  · rw [hscripts, hfree]
  · rw [hdocuments, if_pos rfl]

theorem removes_of_remote (hpolicy : k.deletePolicy = .remote) (hr : k.keyed s.clearId = .ok r)
    (hafter : ∀ w' ∈ [w₁, w₂], k.After c (k.schema.naturalKey r) w') :
    k.Removes c (k.schema.naturalKey r) s w w₁ w₂
      (k.removed (w.documents.get? (pathOf (c.baseUrl ++ k.path (k.schema.naturalKey r)))))
      (k.removed (w₁.documents.get? (pathOf (c.baseUrl ++ k.path (k.schema.naturalKey r))))) := by
  have hleftover : k.leftover = none := by rw [leftover, hpolicy]
  have hmissing := (hafter w₁ (.head _)).2.trans hleftover
  exact {
    first_eq := by rw [removed, hpolicy]
    second_eq := by rw [removed, hpolicy, hmissing]; rfl
    missing := hmissing
    absent := fun w' hw' =>
      run_read_missing hr (hafter w' hw').1 ((hafter w' hw').2.trans hleftover) }

theorem resets_of_reset (hpolicy : k.deletePolicy = .reset) (hr : k.keyed s.clearId = .ok r)
    (hafter : ∀ w' ∈ [w₁, w₂], k.After c (k.schema.naturalKey r) w') :
    k.Resets c (k.schema.naturalKey r) s w₁ w₂
      (k.removed (w.documents.get? (pathOf (c.baseUrl ++ k.path (k.schema.naturalKey r)))))
      (k.removed (w₁.documents.get? (pathOf (c.baseUrl ++ k.path (k.schema.naturalKey r))))) := by
  have hleftover : k.leftover = some (Client.payload (k.schema.encode k.schema.defaults)) := by
    rw [leftover, hpolicy]
  exact {
    first_eq := by rw [removed, hpolicy]
    second_eq := by rw [removed, hpolicy]
    stored := ⟨_, (hafter w₁ (.head _)).2.trans hleftover, k.document?_payload _⟩
    present := fun w' hw' => ⟨_, run_read hr (hafter w' hw').1
      ((hafter w' hw').2.trans hleftover), k.zeroed_refreshed _ s.clearId⟩ }

end Twice

/-- A deletion succeeds whether there is a resource or not. It takes the identity from the state
and nothing else, and a second one changes neither the state nor the documents any further. -/
theorem delete_idempotent {k : Kind} {c : Client} {s : DeclaredState} {w : DocumentServer}
    {key : String} (hkey : k.HasKey s key)
    (hfree : w.Unscripted (pathOf (c.baseUrl ++ k.path key))) :
    ∃ first second w₁ w₂,
      (k.delete c s).run DocumentServer.server w = ((.ok first, s.clearId), w₁) ∧
      (k.delete c s.clearId).run DocumentServer.server w₁ = ((.ok second, s.clearId), w₂) ∧
      w₂.documents = w₁.documents ∧
      (∀ p, p ≠ pathOf (c.baseUrl ++ k.path key) →
        w₁.documents.get? p = w.documents.get? p) ∧
      match k.deletePolicy with
      | .remote => k.Removes c key s w w₁ w₂ first second
      | .reset => k.Resets c key s w₁ w₂ first second := by
  obtain ⟨r, hr, rfl⟩ := hasKey_iff.1 hkey
  have hr₁ : k.keyed s.clearId = .ok r := (k.keyed_clearId s).trans hr
  have hafter₁ := after_delete (c := c) hr hfree
  obtain ⟨hrun₁, -, hdocuments₁⟩ := run_delete (c := c) hr hfree
  generalize hw₁ : ((k.delete c s).run DocumentServer.server w).2 = w₁ at *
  have hafter₂ := after_delete (c := c) hr₁ hafter₁.1
  obtain ⟨hrun₂, -, hdocuments₂⟩ := run_delete (c := c) hr₁ hafter₁.1
  generalize hw₂ : ((k.delete c s.clearId).run DocumentServer.server w₁).2 = w₂ at *
  have hafter : ∀ w' ∈ [w₁, w₂], k.After c (k.schema.naturalKey r) w' := by simp [hafter₁, hafter₂]
  refine ⟨_, _, w₁, w₂, Prod.ext hrun₁ hw₁, Prod.ext hrun₂ hw₂, ?_, fun p hp => ?_, ?_⟩
  · -- the second deletion finds the place as it will leave it
    refine Ascending.ext_get? _ _ fun p => ?_
    rw [hdocuments₂]
    split
    · next hp => rw [hp, hafter₁.2]
    · rfl
  · rw [hdocuments₁, if_neg hp]
  · split
    · next hpolicy => exact removes_of_remote hpolicy hr₁ hafter
    · next hpolicy => exact resets_of_reset hpolicy hr₁ hafter

/-- An agent of which the server knows nothing is reset all the same, and keeps its passphrase. -/
theorem delete_idempotent_monitored :
    snmp.HasKey (snmp.schema.project Snmp.monitored .empty) "abc123" ∧
    ∃ first second w₁ w₂,
      (snmp.delete .blank (snmp.schema.project Snmp.monitored .empty)).run DocumentServer.server
        .empty = ((.ok first, (snmp.schema.project Snmp.monitored .empty).clearId), w₁) ∧
      snmp.Resets .blank "abc123" (snmp.schema.project Snmp.monitored .empty) w₁ w₂ first
        second := by
  have hkey : snmp.HasKey (snmp.schema.project Snmp.monitored .empty) "abc123" :=
    hasKey_iff.2 ⟨Snmp.monitored, keyed_monitored, rfl⟩
  have hfree : DocumentServer.empty.Unscripted
      (pathOf (Client.blank.baseUrl ++ snmp.path "abc123")) := fun _ => rfl
  obtain ⟨first, second, w₁, w₂, hrun, -, -, -, hresets⟩ := delete_idempotent hkey hfree
  exact ⟨hkey, first, second, w₁, w₂, hrun, hresets⟩

end Reconciler.Kind
