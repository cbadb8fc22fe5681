import Reconciler.Proofs.Resource.Documents
import Reconciler.Proofs.Resource.Refresh

/-! What a reading does to a state, for every kind, every state and every reply: it takes over the
document it finds, or drops the identity, or fails and changes nothing. -/
namespace Reconciler.Kind

/-- A state that yields a record, with a natural key that may stand in a path. -/
def HasKey (k : Kind) (s : DeclaredState) (key : String) : Prop :=
  ∃ r, k.schema.materialize s = .ok r ∧ k.schema.naturalKey r = key ∧ key ≠ "" ∧
    isPathSegment key = true

/-- The document of this kind that a body spells. -/
def document? (k : Kind) (body : List UInt8) : Option k.schema.Document :=
  spelled? k.schema.decode? body

/-- A document is read back from the body that carries it. -/
theorem document?_payload (k : Kind) (d : k.schema.Document) :
    k.document? (Client.payload (k.schema.encode d)) = some d :=
  k.lawfulCodec.spelled?_payload d

theorem keyed_eq_ok_iff {k : Kind} {s : DeclaredState} {r : k.schema.Record} :
    k.keyed s = .ok r ↔ k.schema.materialize s = .ok r ∧ k.schema.naturalKey r ≠ "" ∧
      isPathSegment (k.schema.naturalKey r) = true := by
  unfold keyed
  cases k.schema.materialize s with
  | error e => simp
  | ok r' =>
    dsimp only
    split
    · next hempty =>
      simp only [reduceCtorEq, Except.ok.injEq, false_iff]
      rintro ⟨rfl, hne, _⟩
      exact hne hempty
    · next hne =>
      split
      · next hseg =>
        simp only [Except.ok.injEq]
        constructor
        · rintro rfl
          exact ⟨rfl, hne, hseg⟩
        · exact fun h => h.1
      · next hseg =>
        simp only [reduceCtorEq, Except.ok.injEq, false_iff]
        rintro ⟨rfl, _, hseg'⟩
        exact hseg hseg'

@[simp] theorem keyed_setId (k : Kind) (s : DeclaredState) (id : String) :
    k.keyed (s.setId id) = k.keyed s := by
  simp only [keyed, materialize_setId]

@[simp] theorem keyed_clearId (k : Kind) (s : DeclaredState) : k.keyed s.clearId = k.keyed s := by
  simp only [keyed, materialize_clearId]

theorem hasKey_iff {k : Kind} {s : DeclaredState} {key : String} :
    k.HasKey s key ↔ ∃ r, k.keyed s = .ok r ∧ k.schema.naturalKey r = key := by
  simp only [HasKey, keyed_eq_ok_iff]
  constructor
  · rintro ⟨r, hr, rfl, hne, hseg⟩
    exact ⟨r, ⟨hr, hne, hseg⟩, rfl⟩
  · rintro ⟨r, ⟨hr, hne, hseg⟩, rfl⟩
    exact ⟨r, hr, rfl, hne, hseg⟩

/-- A natural key that is accepted stands in the state as a text. -/
theorem get?_naturalKey_of_keyed {k : Kind} {s : DeclaredState} {r : k.schema.Record}
    (hr : k.keyed s = .ok r) : s.get? k.naturalKey = some (.string (k.schema.naturalKey r)) := by
  obtain ⟨hmaterialize, hne, -⟩ := keyed_eq_ok_iff.1 hr
  obtain ⟨set, hf⟩ := k.naturalKey_mem
  have hread : (Reading.ofState s).get String k.naturalKey = .ok (k.schema.naturalKey r) :=
    (k.materialize_eq_ok_iff s r).1 hmaterialize _ hf
  rcases Reading.get?_of_get hread with hget | ⟨-, hzero⟩
  · exact hget
  · exact absurd hzero hne

theorem keyed_project {k : Kind} {r : k.schema.Record} (hne : k.schema.naturalKey r ≠ "")
    (hseg : isPathSegment (k.schema.naturalKey r) = true) (s : DeclaredState) :
    k.keyed (k.schema.project r s) = .ok r :=
  keyed_eq_ok_iff.2 ⟨k.materialize_project r s, hne, hseg⟩

theorem keyed_monitored :
    snmp.keyed (snmp.schema.project Snmp.monitored .empty) = .ok Snmp.monitored :=
  keyed_project (k := snmp) (by decide) (by decide) _

section Reading
variable {k : Kind} {c : Client} {s : DeclaredState}

def afterGet (k : Kind) (c : Client) (key : String) (s : DeclaredState) (reply : Reply) :
    Step Presence :=
  match c.answered .get (k.path key) none reply >>= decodeBody (k.path key) k.schema.decode? with
  | .ok document => (.ok .present, k.refreshed key document s)
  | .error e => if e.isNotFound then (.ok .absent, s.clearId) else (.error (.api e), s)

theorem read_of_keyed {r : k.schema.Record} (hr : k.keyed s = .ok r) :
    k.read c s = .exchange (c.request .get (k.path (k.schema.naturalKey r)) none)
      (k.afterGet c (k.schema.naturalKey r) s) := by
  unfold read
  rw [hr]
  rfl

theorem read_of_error {e : Failure} (he : k.keyed s = .error e) :
    k.read c s = .settled (.error e, s) := by
  unfold read
  rw [he]

theorem afterGet_found {key : String} {body : List UInt8} {d : k.schema.Document}
    (hd : k.document? body = some d) :
    k.afterGet c key s (.response ⟨200, body⟩) = (.ok .present, k.refreshed key d s) := by
  have h : decodeBody (k.path key) k.schema.decode? ⟨200, body⟩ = .ok d :=
    decodeBody_eq_ok_iff.2 hd
  simp only [afterGet, Client.answered_ok]
  change (match decodeBody (k.path key) k.schema.decode? ⟨200, body⟩ with
    | .ok document => _
    | .error e => _) = _
  rw [h]

/-- A server that always answers with one document has it found. -/
theorem read_answering {r : k.schema.Record} (hr : k.keyed s = .ok r) {body : List UInt8}
    {d : k.schema.Document} (hd : k.document? body = some d) :
    ((k.read c s).run (.answering body) ()).1 =
      (.ok .present, k.refreshed (k.schema.naturalKey r) d s) := by
  rw [read_of_keyed hr]
  exact afterGet_found hd

theorem afterGet_missing {key : String} {body : List UInt8} :
    k.afterGet c key s (.response ⟨404, body⟩) = (.ok .absent, s.clearId) := rfl

theorem afterGet_error {key : String} {reply : Reply}
    (found : ∀ body d, reply = .response ⟨200, body⟩ → k.document? body ≠ some d)
    (missing : ∀ body, reply ≠ .response ⟨404, body⟩) :
    ∃ e, k.afterGet c key s reply = (.error (.api e), s) := by
  by_cases ok : ∃ body, reply = .response ⟨200, body⟩
  · obtain ⟨body, rfl⟩ := ok
    cases hd : decodeBody (k.path key) k.schema.decode? ⟨200, body⟩ with
    | ok d => exact absurd (decodeBody_eq_ok_iff.1 hd) (found body d rfl)
    | error e =>
      refine ⟨e, ?_⟩
      change (match decodeBody (k.path key) k.schema.decode? ⟨200, body⟩ with
        | .ok document => _
        | .error e => _) = _
      rw [hd]
      simp [isNotFound_of_decodeBody hd]
  · obtain ⟨e, he, hnot⟩ := c.answered_error .get (k.path key) none
      (fun body h => ok ⟨body, h⟩) missing
    refine ⟨e, ?_⟩
    rw [afterGet, he]
    change (if e.isNotFound = true then _ else _) = _
    simp [hnot]

/-- What a reading may come to, and the reply that each of it takes. -/
theorem afterGet_cases (k : Kind) (c : Client) (key : String) (s : DeclaredState) (reply : Reply) :
    (∃ body d, reply = .response ⟨200, body⟩ ∧ k.document? body = some d ∧
      k.afterGet c key s reply = (.ok .present, k.refreshed key d s)) ∨
    (∃ body, reply = .response ⟨404, body⟩ ∧ k.afterGet c key s reply = (.ok .absent, s.clearId)) ∨
    ∃ e, k.afterGet c key s reply = (.error (.api e), s) := by
  by_cases found : ∃ body d, reply = .response ⟨200, body⟩ ∧ k.document? body = some d
  · obtain ⟨body, d, rfl, hd⟩ := found
    exact .inl ⟨body, d, rfl, hd, afterGet_found hd⟩
  · by_cases missing : ∃ body, reply = .response ⟨404, body⟩
    · obtain ⟨body, rfl⟩ := missing
      exact .inr (.inl ⟨body, rfl, afterGet_missing⟩)
    · exact .inr (.inr (afterGet_error (fun body d hr hd => found ⟨body, d, hr, hd⟩)
        fun body hr => missing ⟨body, hr⟩))

/-- A reading observes the resource only where the reply brings its document. -/
theorem exists_document_of_afterGet {key : String} {reply : Reply} {s' : DeclaredState}
    (h : k.afterGet c key s reply = (.ok .present, s')) :
    ∃ body d, reply = .response ⟨200, body⟩ ∧ k.document? body = some d ∧
      s' = k.refreshed key d s := by
  rcases k.afterGet_cases c key s reply with ⟨body, d, hr, hd, hs⟩ | ⟨body, -, hs⟩ | ⟨e, hs⟩
  · cases hs.symm.trans h
    exact ⟨body, d, hr, hd, rfl⟩
  · cases hs.symm.trans h
  · cases hs.symm.trans h

/-- It misses the resource only where the reply says so. -/
theorem exists_missing_of_afterGet {key : String} {reply : Reply} {s' : DeclaredState}
    (h : k.afterGet c key s reply = (.ok .absent, s')) :
    ∃ body, reply = .response ⟨404, body⟩ := by
  rcases k.afterGet_cases c key s reply with ⟨body, d, -, -, hs⟩ | ⟨body, hr, -⟩ | ⟨e, hs⟩
  · cases hs.symm.trans h
  · exact ⟨body, hr⟩
  · cases hs.symm.trans h

end Reading

/-- A state after a reading that found a document: it has its identity, each mapped key has its own
part of the document's record, secrets stay where the document is silent, all other keys are as
before, and the state still yields a record. -/
structure Refreshes (k : Kind) (key : String) (d : k.schema.Document) (s s' : DeclaredState) :
    Prop where
  id : s'.id = some (identity k.tag key)
  unmapped : ∀ x, x ∉ k.keys → s'.get? x = s.get? x
  mapped : ∀ x v, (x, v) ∈ k.parts (k.schema.ofDocument key d) → x ∉ k.secretKeys →
    s'.get? x = some v
  secret : ∀ x ∈ k.secretKeys, ∃ v, (x, v) ∈ k.parts (k.schema.ofDocument key d) ∧
    s'.get? x = some (preferred v (s.get? x))
  record : ∃ r, k.schema.materialize s' = .ok r

theorem refreshes_refreshed {k : Kind} {s : DeclaredState} {r : k.schema.Record}
    (hr : k.schema.materialize s = .ok r) (key : String) (d : k.schema.Document) :
    k.Refreshes key d s (k.refreshed key d s) where
  id := rfl
  unmapped _ hx := get?_refreshed_unmapped k key d s hx
  mapped x v hv hx := by
    obtain ⟨f, hf, rfl, rfl⟩ := mem_parts.1 hv
    exact get?_refreshed_mapped k key d s hf hx
  secret x hx := by
    obtain ⟨get, set, hf⟩ := k.secret_mem hx
    exact ⟨_, mem_parts.2 ⟨_, hf, rfl, rfl⟩, get?_refreshed_secret k key d s hf hx⟩
  record := ⟨_, materialize_refreshed hr key d⟩

def found {σ : Type} (k : Kind) (c : Client) (server : Server σ) (key : String) (w : σ) : Reply :=
  (server.answer (c.request .get (k.path key) none) w).1

/-- The complete effect of a reading. With a natural key it depends on the one reply: a document is
taken over, a missing resource costs the identity alone. Everything else is a failure, and a
failure leaves the state as it was. -/
theorem read_effect {σ : Type} (k : Kind) (c : Client) (server : Server σ) (s : DeclaredState)
    (w : σ) :
    (∀ key, k.HasKey s key →
      (∀ body d, k.found c server key w = .response ⟨200, body⟩ → k.document? body = some d →
        ∃ s', ((k.read c s).run server w).1 = (.ok .present, s') ∧ k.Refreshes key d s s') ∧
      (∀ body, k.found c server key w = .response ⟨404, body⟩ →
        ((k.read c s).run server w).1 = (.ok .absent, s.clearId))) ∧
    ((∀ key, k.HasKey s key →
      (∀ body d, k.found c server key w = .response ⟨200, body⟩ → k.document? body ≠ some d) ∧
      (∀ body, k.found c server key w ≠ .response ⟨404, body⟩)) →
      ∃ e, ((k.read c s).run server w).1 = (.error e, s)) := by
  refine ⟨?_, ?_⟩
  · intro key hkey
    obtain ⟨r, hr, rfl⟩ := hasKey_iff.1 hkey
    rw [read_of_keyed hr]
    refine ⟨?_, ?_⟩
    · intro body d hfound hd
      refine ⟨_, ?_, refreshes_refreshed (keyed_eq_ok_iff.1 hr).1 _ d⟩
      rw [← afterGet_found hd, ← hfound]
      rfl
    · intro body hfound
      rw [← afterGet_missing, ← hfound]
      rfl
  · intro hneither
    cases hk : k.keyed s with
    | error e =>
      refine ⟨e, ?_⟩
      unfold read
      rw [hk]
      rfl
    | ok r =>
      obtain ⟨hfound, hmissing⟩ := hneither _ (hasKey_iff.2 ⟨r, hk, rfl⟩)
      obtain ⟨e, he⟩ := afterGet_error (c := c) (s := s) hfound hmissing
      refine ⟨.api e, ?_⟩
      rw [read_of_keyed hk]
      exact he

/-- The server blanks a passphrase and the state is refreshed all the same. -/
theorem read_effect_monitored :
    ∃ s', ((snmp.read .blank (snmp.schema.project Snmp.monitored .empty)).run
        (.answering (Client.payload (SnmpDocument.encode
          (Snmp.toDocument { Snmp.monitored with authPassphrase := "" })))) ()).1 =
        (.ok .present, s') ∧
      snmp.Refreshes "abc123" (Snmp.toDocument { Snmp.monitored with authPassphrase := "" })
        (snmp.schema.project Snmp.monitored .empty) s' := by
  have hkey : snmp.HasKey (snmp.schema.project Snmp.monitored .empty) "abc123" :=
    hasKey_iff.2 ⟨Snmp.monitored, keyed_monitored, rfl⟩
  exact ((read_effect snmp _ _ _ ()).1 "abc123" hkey).1 _ _ rfl (snmp.document?_payload _)

end Reconciler.Kind
