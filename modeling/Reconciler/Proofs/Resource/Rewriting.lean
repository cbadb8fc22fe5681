import Reconciler.Batch.Run
import Reconciler.Proofs.Resource.Writing

/-! Whether a state can be written again once it has been read. A reading always leaves a record
with its natural key. What may be missing is the SNMP user that a passphrase needs. -/
namespace Reconciler

namespace Snmp

/-- The document names no user, but it or the declared record holds a passphrase. -/
def OrphanSecret (declared : Snmp) (d : SnmpDocument) : Prop :=
  (d.v3.getD .blank).username = "" ∧
    ((d.v3.getD .blank).authPassphrase ≠ "" ∨ declared.authPassphrase ≠ "" ∨
      (d.v3.getD .blank).privPassphrase ≠ "" ∨ declared.privPassphrase ≠ "")

theorem orphanSecret_iff {declared : Snmp} {key : String} {d : SnmpDocument} :
    OrphanSecret declared d ↔
      ((keepSecrets declared (ofDocument key d)).authPassphrase ≠ "" ∨
        (keepSecrets declared (ofDocument key d)).privPassphrase ≠ "") ∧
      (keepSecrets declared (ofDocument key d)).username = "" := by
  simp only [OrphanSecret, keepSecrets, ofDocument, firstText_ne_empty, or_assoc]
  exact and_comm

theorem missing?_of_orphanSecret {declared : Snmp} {key : String} {d : SnmpDocument}
    (h : OrphanSecret declared d) :
    (keepSecrets declared (ofDocument key d)).missing? = some "username" :=
  if_pos (orphanSecret_iff.1 h)

theorem missing?_of_not_orphanSecret {declared : Snmp} {key : String} {d : SnmpDocument}
    (h : ¬OrphanSecret declared d) :
    (keepSecrets declared (ofDocument key d)).missing? = none :=
  if_neg fun hmissing => h (orphanSecret_iff.2 hmissing)

end Snmp

namespace Kind

/-- What a reading brings together that cannot be written: a secret that needs a user, and a
document without one. -/
def OrphanSecret : (k : Kind) → k.schema.Record → k.schema.Document → Prop
  | .snmp => Snmp.OrphanSecret
  | .node | .cpuLimits | .ioLimits | .license => fun _ _ => False

theorem missing?_of_orphanSecret {k : Kind} {r : k.schema.Record} {key : String}
    {d : k.schema.Document} (h : k.OrphanSecret r d) :
    k.schema.missing? (k.keepSecrets r (k.schema.ofDocument key d)) = some "username" := by
  cases k with
  | snmp => exact Snmp.missing?_of_orphanSecret h
  | node | cpuLimits | ioLimits | license => cases h

theorem missing?_of_not_orphanSecret {k : Kind} {r : k.schema.Record} {key : String}
    {d : k.schema.Document} (h : ¬k.OrphanSecret r d) :
    k.schema.missing? (k.keepSecrets r (k.schema.ofDocument key d)) = none := by
  cases k with
  | snmp => exact Snmp.missing?_of_not_orphanSecret h
  | node | cpuLimits | ioLimits | license => rfl

@[simp] theorem naturalKey_keepSecrets (k : Kind) (declared served : k.schema.Record) :
    k.schema.naturalKey (k.keepSecrets declared served) = k.schema.naturalKey served := by
  cases k <;> rfl

/-- A reading leaves the natural key as it is, so the record stays under its path. -/
theorem keyed_refreshed {k : Kind} {s : DeclaredState} {r : k.schema.Record}
    (hr : k.keyed s = .ok r) (d : k.schema.Document) :
    k.keyed (k.refreshed (k.schema.naturalKey r) d s) =
      .ok (k.keepSecrets r (k.schema.ofDocument (k.schema.naturalKey r) d)) := by
  obtain ⟨hmaterialize, hne, hseg⟩ := keyed_eq_ok_iff.1 hr
  refine keyed_eq_ok_iff.2 ⟨materialize_refreshed hmaterialize _ d, ?_, ?_⟩
  · simpa using hne
  · simpa using hseg

theorem get?_naturalKey_refreshed {k : Kind} {s : DeclaredState} {r : k.schema.Record}
    (hr : k.keyed s = .ok r) (d : k.schema.Document) :
    (k.refreshed (k.schema.naturalKey r) d s).get? k.naturalKey = s.get? k.naturalKey := by
  rw [get?_naturalKey_of_keyed (keyed_refreshed hr d), get?_naturalKey_of_keyed hr,
    naturalKey_keepSecrets, naturalKey_ofDocument]

theorem find_tag (k : Kind) : find k.tag = .ok k := by
  cases k <;> rfl

/-- A batch updates what has an identity. -/
theorem step_apply_of_hasId (k : Kind) (c : Client) {s : DeclaredState} (h : s.hasId = true) :
    Entry.step c .apply ⟨k.tag, s⟩ = k.update c s := by
  simp only [Entry.step, find_tag, h]

/-- After a reading that found the resource, the state still has its record and its natural key,
and the next writing is sent, also that of a batch, unless the reading left a secret without its
user. Then every writing fails on the user name, and sends nothing. -/
theorem write_after_read {σ : Type} {k : Kind} {c : Client} {server : Server σ}
    {s s' : DeclaredState} {w : σ} {r : k.schema.Record} (hs : k.writable s = .ok r)
    (hread : ((k.read c s).run server w).1 = (.ok .present, s')) :
    ∃ body d, k.found c server (k.schema.naturalKey r) w = .response ⟨200, body⟩ ∧
      k.document? body = some d ∧ (∃ r', k.keyed s' = .ok r') ∧
      Entry.step c .apply ⟨k.tag, s'⟩ = k.update c s' ∧
      (¬k.OrphanSecret r d → ∃ r', k.writable s' = .ok r' ∧
        ∀ outcome, (k.write c outcome s').request? =
          some (c.request .put (k.path (k.schema.naturalKey r)) (some (k.payload r')))) ∧
      (k.OrphanSecret r d → ∀ outcome,
        k.write c outcome s' = .settled (.error (.missingKey k "username"), s')) := by
  have hr := (writable_eq_ok_iff.1 hs).1
  rw [read_of_keyed hr] at hread
  obtain ⟨body, d, hreply, hd, rfl⟩ := exists_document_of_afterGet hread
  have hkeyed := keyed_refreshed hr d
  refine ⟨body, d, hreply, hd, ⟨_, hkeyed⟩, k.step_apply_of_hasId c rfl, ?_, ?_⟩
  · intro horphan
    have hw := writable_eq_ok_iff.2 ⟨hkeyed, missing?_of_not_orphanSecret horphan⟩
    refine ⟨_, hw, fun outcome => ?_⟩
    rw [write_of_writable hw]
    simp [Call.request?]
  · intro horphan outcome
    exact write_of_error (writable_of_missing hkeyed (missing?_of_orphanSecret horphan))

/-- As long as the server names the user, its passphrase is sent again. -/
theorem write_after_read_monitored :
    ∃ r', ∀ outcome,
      (snmp.write .blank outcome (snmp.refreshed "abc123"
        (Snmp.toDocument { Snmp.monitored with authPassphrase := "" })
        (snmp.schema.project Snmp.monitored .empty))).request? =
        some (Client.blank.request .put "/node/abc123/config/snmp" (some (snmp.payload r'))) := by
  obtain ⟨served, hserved⟩ : ∃ body, snmp.document? body =
      some (Snmp.toDocument { Snmp.monitored with authPassphrase := "" }) :=
    ⟨_, snmp.document?_payload _⟩
  obtain ⟨body, d, hreply, hd, -, -, hsent, -⟩ := write_after_read (c := .blank) writable_monitored
    (read_answering keyed_monitored hserved)
  cases hreply
  obtain rfl := Option.some.inj (hserved.symm.trans hd)
  obtain ⟨r', -, hput⟩ := hsent fun horphan => absurd horphan.1 (by decide)
  exact ⟨r', hput⟩

/-- A server that forgets the user makes a state that was fit to be written unfit. -/
theorem not_writable_after_read :
    ¬∀ (k : Kind) (c : Client) (server : Server Unit) (s s' : DeclaredState),
      (∃ r, k.writable s = .ok r) → ((k.read c s).run server ()).1 = (.ok .present, s') →
      ∃ r', k.writable s' = .ok r' := by
  intro h
  obtain ⟨r', hr'⟩ := h snmp .blank _ _ _ ⟨Snmp.monitored, writable_monitored⟩
    (read_answering keyed_monitored (snmp.document?_payload SnmpDocument.defaults))
  have horphan : snmp.OrphanSecret Snmp.monitored SnmpDocument.defaults := ⟨rfl, by decide⟩
  rw [writable_of_missing (keyed_refreshed keyed_monitored _)
    (missing?_of_orphanSecret horphan)] at hr'
  cases hr'

end Kind
end Reconciler
