import Reconciler.Proofs.Resource.History
import Reconciler.Proofs.Resource.Rewriting
import Reconciler.Proofs.Resource.Wire

/-! Reading and updating a created resource over and over: whatever the server shows of it, the
same document is sent each time, and no declared secret gets lost. -/
namespace Reconciler

def NodeDocument.shown (computed stored : NodeDocument) : NodeDocument :=
  { stored with status := computed.status, publicIp := computed.publicIp }

def LicenseDocument.shown (computed : LicenseDocument) : LicenseDocument :=
  { computed with key := "" }

def SnmpDocument.shown (stored : SnmpDocument) : SnmpDocument :=
  { stored with
    v3 := stored.v3.map fun u => { u with authPassphrase := "", privPassphrase := "" } }

namespace Snmp

theorem toDocument_keepSecrets_shown {r : Snmp} (hr : r.missing? = none) (key : String) :
    (keepSecrets r (ofDocument key r.toDocument.shown)).toDocument = r.toDocument ∧
      (keepSecrets r (ofDocument key r.toDocument.shown)).missing? = none := by
  rw [missing?_eq_none_iff] at hr ⊢
  by_cases huser : r.username = ""
  · obtain ⟨hauth, hpriv⟩ := hr huser
    -- the section is left out, so the passphrases are those of the record, which are empty
    have hshown : ofDocument key r.toDocument.shown =
        { r with nodeId := key, authProtocol := "", privProtocol := "" } := by
      simp [ofDocument, toDocument, SnmpDocument.shown, SnmpUser.blank, huser, hauth, hpriv]
    rw [hshown]
    simp [keepSecrets, toDocument, huser, hauth, hpriv]
  · have hshown : ofDocument key r.toDocument.shown =
        { r with nodeId := key, authPassphrase := "", privPassphrase := "" } := by
      simp [ofDocument, toDocument, SnmpDocument.shown, huser]
    rw [hshown]
    simp [keepSecrets, toDocument, huser]

/-- The passphrases of a shown document are empty, with or without a user. -/
theorem passphrases_shown (key : String) (d : SnmpDocument) :
    (ofDocument key d.shown).authPassphrase = "" ∧
      (ofDocument key d.shown).privPassphrase = "" := by
  cases hv3 : d.v3 <;> simp [ofDocument, SnmpDocument.shown, SnmpUser.blank, hv3]

end Snmp

namespace Kind

/-- What a server shows of a stored document: nothing where a field is write-only, and values of
its own where it computes them. -/
def shown : (k : Kind) → (computed stored : k.schema.Document) → k.schema.Document
  | .node => NodeDocument.shown
  | .license => fun computed _ => computed.shown
  | .snmp => fun _ stored => stored.shown
  | .cpuLimits | .ioLimits => fun _ stored => stored

/-- What comes back from the server, under the declared secrets, is sent as before. -/
theorem toDocument_keepSecrets_shown {k : Kind} {r : k.schema.Record}
    (hr : k.schema.missing? r = none) (key : String) (computed : k.schema.Document) :
    k.schema.toDocument (k.keepSecrets r
        (k.schema.ofDocument key (k.shown computed (k.schema.toDocument r)))) =
        k.schema.toDocument r ∧
      k.schema.missing? (k.keepSecrets r
        (k.schema.ofDocument key (k.shown computed (k.schema.toDocument r)))) = none := by
  cases k with
  | snmp => exact Snmp.toDocument_keepSecrets_shown hr key
  | node | cpuLimits | ioLimits | license => exact ⟨rfl, rfl⟩

/-- A server never shows a secret. -/
theorem isEmpty_store_shown {k : Kind} {f : Field k.schema.Record} (hf : f ∈ k.fields)
    (hx : f.key ∈ k.secretKeys) (key : String) (computed d : k.schema.Document) :
    (f.store (k.schema.ofDocument key (k.shown computed d))).isEmpty = true := by
  revert hx f
  cases k with
  | node | cpuLimits | ioLimits =>
    intro f _ hx
    cases hx
  | snmp =>
    obtain ⟨hauth, hpriv⟩ := Snmp.passphrases_shown key d
    change ∀ f ∈ Snmp.fields, _ →
      (f.store (Snmp.ofDocument key (SnmpDocument.shown d))).isEmpty = true
    simp [Snmp.fields, secretKeys, Field.plain, Field.blocks, Field.store, toValue, hauth, hpriv]
  | license =>
    change ∀ f ∈ License.fields, _ →
      (f.store (License.ofDocument key (LicenseDocument.shown computed))).isEmpty = true
    simp [License.fields, secretKeys, Field.plain, Field.store, License.ofDocument,
      LicenseDocument.shown, toValue]

/-- A server that keeps the document last written for a resource, and shows it when asked. What it
computes may differ each time. -/
structure Keeps {σ : Type} (k : Kind) (c : Client) (key : String) (server : Server σ)
    (stored : σ → Option (List UInt8)) : Prop where
  put : ∀ w body, ∃ answer w',
    server.answer (c.request .put (k.path key) (some body)) w = (.response ⟨200, answer⟩, w') ∧
      stored w' = some body
  get : ∀ w body d, stored w = some body → k.document? body = some d → ∃ answer computed w',
    server.answer (c.request .get (k.path key) none) w = (.response ⟨200, answer⟩, w') ∧
      k.document? answer = some (k.shown computed d) ∧ stored w' = some body

/-- What each operation preserves: the server holds what the first writing sent, the state would
send it again, and it has all secrets it started with. -/
structure Upheld {σ : Type} (k : Kind) (stored : σ → Option (List UInt8)) (s₀ : DeclaredState)
    (r : k.schema.Record) (s : DeclaredState) (w : σ) : Prop where
  stored : stored w = some (k.payload r)
  record : ∃ r', k.writable s = .ok r' ∧ k.schema.naturalKey r' = k.schema.naturalKey r ∧
    k.schema.toDocument r' = k.schema.toDocument r
  secret : ∀ x ∈ k.secretKeys, ∀ v, s₀.get? x = some v → v.isEmpty = false → s.get? x = some v

end Kind

inductive Upkeep
  | read
  | update
deriving DecidableEq

namespace Upkeep

def op : Upkeep → Op
  | .read => .read
  | .update => .update

def event (k : Kind) (c : Client) (r : k.schema.Record) : Upkeep → Event
  | .read =>
    ⟨some (c.request .get (k.path (k.schema.naturalKey r)) none), .ok (.observed .present)⟩
  | .update =>
    ⟨some (c.request .put (k.path (k.schema.naturalKey r)) (some (k.payload r))),
      .ok (.applied .modified)⟩

end Upkeep

namespace Kind

/-- A state keeps its secrets when it takes over what a server shows. -/
theorem get?_refreshed_shown {k : Kind} {s : DeclaredState} {x : String} {v : Value}
    (hx : x ∈ k.secretKeys) (hv : s.get? x = some v) (hne : v.isEmpty = false) (key : String)
    (computed d : k.schema.Document) :
    (k.refreshed key (k.shown computed d) s).get? x = some v :=
  get?_refreshed_of_isEmpty k key _ s hx hv hne fun _ hf hx => isEmpty_store_shown hf hx _ _ _

section Steps
variable {σ : Type} {k : Kind} {c : Client} {server : Server σ}
  {stored : σ → Option (List UInt8)} {s₀ s : DeclaredState} {r : k.schema.Record} {w : σ}

theorem upheld_read (hkeeps : k.Keeps c (k.schema.naturalKey r) server stored)
    (h : k.Upheld stored s₀ r s w) :
    ∃ s' w', Op.read.step server k c s w = (Upkeep.read.event k c r, s', w') ∧
      k.Upheld stored s₀ r s' w' := by
  obtain ⟨r', hw, hkey, hdoc⟩ := h.record
  obtain ⟨hkeyed, hmissing⟩ := writable_eq_ok_iff.1 hw
  obtain ⟨answer, computed, w', hanswer, hshown, hstored⟩ :=
    hkeeps.get w _ _ h.stored (k.document?_payload _)
  have hcall : Op.read.call k c s =
      .exchange (c.request .get (k.path (k.schema.naturalKey r)) none)
        fun reply => Step.map .observed (k.afterGet c (k.schema.naturalKey r) s reply) := by
    rw [Op.call, read_of_keyed hkeyed, hkey]
    rfl
  have hstep := Op.step_of_exchange hcall hanswer
  rw [afterGet_found hshown] at hstep
  refine ⟨_, _, hstep, hstored, ?_, ?_⟩
  · have hback := keyed_refreshed hkeyed (k.shown computed (k.schema.toDocument r))
    obtain ⟨hsame, hnone⟩ := toDocument_keepSecrets_shown hmissing (k.schema.naturalKey r') computed
    rw [hdoc] at hsame hnone
    rw [hkey] at hback hsame hnone
    exact ⟨_, writable_eq_ok_iff.2 ⟨hback, hnone⟩, by simp, hsame⟩
  · intro x hx v hv hne
    exact get?_refreshed_shown hx (h.secret x hx v hv hne) hne _ _ _

/-- A writing reaches the server with the document of the record. -/
private theorem step_of_write {op : Op} {outcome : ApplyResult} {r' : k.schema.Record}
    (hop : op.call k c s = (k.write c outcome s).map (Step.map .applied))
    (hkeeps : k.Keeps c (k.schema.naturalKey r) server stored) (hw : k.writable s = .ok r')
    (hkey : k.schema.naturalKey r' = k.schema.naturalKey r)
    (hdoc : k.schema.toDocument r' = k.schema.toDocument r) :
    ∃ w', op.step server k c s w =
      (⟨some (c.request .put (k.path (k.schema.naturalKey r)) (some (k.payload r))),
        .ok (.applied outcome)⟩, s.setId (identity k.tag (k.schema.naturalKey r')), w') ∧
      stored w' = some (k.payload r) := by
  obtain ⟨answer, w', hanswer, hstored⟩ := hkeeps.put w (k.payload r)
  have hpayload : k.payload r' = k.payload r := by rw [payload, payload, hdoc]
  have hcall : op.call k c s =
      .exchange (c.request .put (k.path (k.schema.naturalKey r)) (some (k.payload r)))
        fun reply => Step.map .applied (k.afterPut c outcome r' s reply) := by
    rw [hop, write_of_writable hw, hkey, hpayload]
    rfl
  have hstep := Op.step_of_exchange hcall hanswer
  rw [afterPut_stored] at hstep
  exact ⟨w', hstep, hstored⟩

theorem upheld_update (hkeeps : k.Keeps c (k.schema.naturalKey r) server stored)
    (h : k.Upheld stored s₀ r s w) :
    ∃ s' w', Op.update.step server k c s w = (Upkeep.update.event k c r, s', w') ∧
      k.Upheld stored s₀ r s' w' := by
  obtain ⟨r', hw, hkey, hdoc⟩ := h.record
  have hop : Op.update.call k c s = (k.write c .modified s).map (Step.map .applied) := rfl
  obtain ⟨w', hstep, hstored⟩ := step_of_write hop hkeeps hw hkey hdoc
  exact ⟨_, w', hstep, hstored, ⟨r', (k.writable_setId ..).trans hw, hkey, hdoc⟩, h.secret⟩

/-- A creation establishes the invariant. -/
theorem upheld_create (hkeeps : k.Keeps c (k.schema.naturalKey r) server stored)
    (hw : k.writable s = .ok r) :
    ∃ s' w', Op.create.step server k c s w =
      (⟨some (c.request .put (k.path (k.schema.naturalKey r)) (some (k.payload r))),
        .ok (.applied .created)⟩, s', w') ∧ k.Upheld stored s r s' w' := by
  have hop : Op.create.call k c s = (k.write c .created s).map (Step.map .applied) := rfl
  obtain ⟨w', hstep, hstored⟩ := step_of_write hop hkeeps hw rfl rfl
  exact ⟨_, w', hstep, hstored, ⟨r, (k.writable_setId ..).trans hw, rfl, rfl⟩, fun _ _ _ hv _ => hv⟩

/-- Every list of readings and updates runs as expected, from wherever the invariant holds. -/
theorem upheld_history (hkeeps : k.Keeps c (k.schema.naturalKey r) server stored)
    (h : k.Upheld stored s₀ r s w) (ops : List Upkeep) :
    (history server k c (ops.map Upkeep.op) s w).events = ops.map (Upkeep.event k c r) ∧
      k.Upheld stored s₀ r (history server k c (ops.map Upkeep.op) s w).state
        (history server k c (ops.map Upkeep.op) s w).world := by
  induction ops generalizing s w with
  | nil => exact ⟨rfl, h⟩
  | cons op ops ih =>
    obtain ⟨s', w', hstep, h'⟩ : ∃ s' w', op.op.step server k c s w = (op.event k c r, s', w') ∧
        k.Upheld stored s₀ r s' w' := by
      cases op with
      | read => exact upheld_read hkeeps h
      | update => exact upheld_update hkeeps h
    obtain ⟨hevents, hend⟩ := ih h'
    rw [List.map_cons, history_cons hstep]
    exact ⟨congrArg (op.event k c r :: ·) hevents, hend⟩

end Steps

/-- After a creation that succeeds, every reading finds the resource and every update changes it,
in whatever order they come. All writings send the same bytes, and no secret is lost. -/
theorem upkeep_after_create {σ : Type} {k : Kind} {c : Client} {key : String} {server : Server σ}
    {stored : σ → Option (List UInt8)} {s : DeclaredState} {w : σ}
    (hkeeps : k.Keeps c key server stored) (hkey : k.HasKey s key)
    (hcreate : ((k.create c s).run server w).1.1 = .ok .created) (ops : List Upkeep) :
    ∃ r, k.writable s = .ok r ∧ k.schema.naturalKey r = key ∧
      (history server k c (.create :: ops.map Upkeep.op) s w).events =
        ⟨some (c.request .put (k.path key) (some (k.payload r))), .ok (.applied .created)⟩ ::
          ops.map (Upkeep.event k c r) ∧
      ∀ x ∈ k.secretKeys, ∀ v, s.get? x = some v → v.isEmpty = false →
        (history server k c (.create :: ops.map Upkeep.op) s w).state.get? x = some v := by
  cases hw : k.writable s with
  | error e =>
    rw [create, write_of_error hw] at hcreate
    cases hcreate
  | ok r =>
    obtain ⟨hkeyed, -⟩ := writable_eq_ok_iff.1 hw
    obtain ⟨r₀, hkeyed₀, rfl⟩ := hasKey_iff.1 hkey
    obtain rfl : r₀ = r := Except.ok.inj (hkeyed₀.symm.trans hkeyed)
    obtain ⟨s', w', hstep, hstart⟩ := upheld_create (w := w) hkeeps hw
    obtain ⟨hevents, hend⟩ := upheld_history hkeeps hstart ops
    rw [history_cons hstep]
    exact ⟨r₀, rfl, rfl, congrArg (_ :: ·) hevents, hend.secret⟩

section Showing
variable (k : Kind) (c : Client) (key : String) (computed : Nat → k.schema.Document)

def showing : Server (Option (List UInt8) × Nat) where
  answer request w :=
    if request.url = c.baseUrl ++ k.path key then
      match request.method, request.body with
      | .put, some body => (.response ⟨200, []⟩, (some body, w.2 + 1))
      | .get, none =>
        match w.1.bind k.document? with
        | some d => (.response ⟨200, Client.payload (k.schema.encode (k.shown (computed w.2) d))⟩,
          (w.1, w.2 + 1))
        | none => (.response ⟨404, []⟩, w)
      | _, _ => (.response ⟨405, []⟩, w)
    else (.response ⟨404, []⟩, w)

theorem showing_put (body : List UInt8) (w : Option (List UInt8) × Nat) :
    (k.showing c key computed).answer (c.request .put (k.path key) (some body)) w =
      (.response ⟨200, []⟩, (some body, w.2 + 1)) := if_pos rfl

theorem showing_get {body : List UInt8} {d : k.schema.Document} (hd : k.document? body = some d)
    (n : Nat) :
    (k.showing c key computed).answer (c.request .get (k.path key) none) (some body, n) =
      (.response ⟨200, Client.payload (k.schema.encode (k.shown (computed n) d))⟩,
        (some body, n + 1)) := by
  refine (if_pos rfl).trans ?_
  simp only [Client.request, Option.bind_some, hd]

theorem keeps_showing : k.Keeps c key (k.showing c key computed) Prod.fst where
  put w body := ⟨[], _, k.showing_put c key computed body w, rfl⟩
  get w body d hstored hd := by
    obtain ⟨_, n⟩ := w
    obtain rfl : _ = some body := hstored
    exact ⟨_, computed n, _, k.showing_get c key computed hd n, k.document?_payload _, rfl⟩

end Showing

/-- The passphrase is still there after the server has blanked it twice. -/
theorem upkeep_after_create_monitored :
    (history (snmp.showing .blank "abc123" fun _ => SnmpDocument.defaults) snmp .blank
      (.create :: [Upkeep.read, .update, .read].map Upkeep.op)
      (snmp.schema.project Snmp.monitored .empty) (none, 0)).state.get? "auth_passphrase" =
      some (.string "secret") := by
  have hdeclared : (snmp.schema.project Snmp.monitored .empty).get? "auth_passphrase" =
      some (.string "secret") :=
    get?_project_of_mem (k := snmp) (List.mem_of_getElem? (i := 8) rfl) Snmp.monitored .empty
  have hcreate : ((snmp.create .blank (snmp.schema.project Snmp.monitored .empty)).run
      (snmp.showing .blank "abc123" fun _ => SnmpDocument.defaults) (none, 0)).1.1 =
      .ok .created := by
    rw [create, write_of_writable writable_monitored, Call.run]
    rfl
  obtain ⟨_, _, _, _, hsecret⟩ := upkeep_after_create (snmp.keeps_showing ..)
    (hasKey_iff.2 ⟨_, keyed_monitored, rfl⟩) hcreate [.read, .update, .read]
  exact hsecret "auth_passphrase" (by decide) _ hdeclared rfl

end Kind
end Reconciler
