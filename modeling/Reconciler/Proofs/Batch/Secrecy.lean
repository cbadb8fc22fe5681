import Reconciler.Proofs.Batch.Lockstep
import Reconciler.Proofs.Batch.Refreshing
import Reconciler.Proofs.Resource.Secrecy

/-! Secrets do not reach reports. Batches over entries that differ in secrets alone run side by side
and report the same, as long as the server does not bring the secrets up itself. -/
namespace Reconciler

def Request.bodiless (r : Request) : Request := { r with body := none }

/-- A server that pays no attention to the bodies of requests. What it keeps of them makes no
difference to what it answers. -/
structure Endpoint.Blind {σ : Type} (e : Endpoint σ) (near : σ → σ → Prop) : Prop where
  arrive {w w' : σ} {r r' : Request} (hw : near w w') (hr : r.bodiless = r'.bodiless) :
    near (e.arrive r w) (e.arrive r' w')
  answer {w w' : σ} {r r' : Request} (hw : near w w') (hr : r.bodiless = r'.bodiless) :
    (e.answer r w).1 = (e.answer r' w').1 ∧ near (e.answer r w).2 (e.answer r' w').2

section Blind
variable {σ α β : Type} {e : Endpoint σ} {near : σ → σ → Prop} (hb : e.Blind near)
include hb

theorem Endpoint.Blind.twins {P : α → β → Prop} {r r' : Request} {receive : Reply → α}
    {receive' : Reply → β} (hr : r.bodiless = r'.bodiless)
    (h : ∀ reply, P (receive reply) (receive' reply)) :
    (Call.exchange r receive).Twins e near P (.exchange r' receive') := by
  have hmethod : r'.bodiless.method = r.bodiless.method := congrArg Request.method hr.symm
  refine .exchange hmethod (fun w w' hw => hb.arrive hw hr) fun w w' hw => ?_
  obtain ⟨hreply, hworld⟩ := hb.answer hw hr
  refine ⟨?_, hworld⟩
  rw [← hreply]
  exact h _

/-- A call goes alike in worlds that a blind server cannot tell apart. -/
theorem Endpoint.Blind.twins_self (call : Call α) : call.Twins e near Eq call := by
  cases call with
  | settled a => exact .settled rfl
  | exchange request receive => exact hb.twins rfl fun _ => rfl

end Blind

namespace Kind
variable {σ : Type} {e : Endpoint σ} {near : σ → σ → Prop} {k : Kind} {c : Client}
  {s t : DeclaredState}

/-- Writing goes alike under different secrets, if the server is blind to bodies. -/
theorem write_twins (hb : e.Blind near) (h : s.Alike k.secretKeys t) (outcome : ApplyResult) :
    (k.write c outcome s).Twins e near (Step.Alike k.secretKeys) (k.write c outcome t) := by
  cases hs : k.writable s with
  | error failure =>
    rw [write_of_error hs, write_of_error (writable_error_alike h hs)]
    exact .settled ⟨rfl, h⟩
  | ok r =>
    obtain ⟨r', ht, hkey⟩ := exists_writable_alike h hs
    rw [write_of_writable hs, write_of_writable ht, hkey]
    exact hb.twins rfl fun reply => afterPut_alike h hkey reply

theorem delete_twins (hb : e.Blind near) (h : s.Alike k.secretKeys t) :
    (k.delete c s).Twins e near (Step.Alike k.secretKeys) (k.delete c t) := by
  unfold delete
  cases hs : k.keyed s with
  | error failure =>
    rw [keyed_error_alike h hs]
    exact .settled ⟨rfl, h⟩
  | ok r =>
    obtain ⟨r', ht, hkey, -⟩ := exists_keyed_alike h hs
    rw [ht]
    dsimp only
    rw [hkey]
    refine (hb.twins_self _).map ?_
    rintro result _ rfl
    cases result with
    | ok _ => exact ⟨rfl, h.clearId⟩
    | error failure =>
      dsimp only
      split
      · exact ⟨rfl, h.clearId⟩
      · exact ⟨rfl, h⟩

/-- What a refresh makes of a reply that is silent about the secrets. -/
theorem afterReading_alike {key : String} {reply : Reply} (h : s.Alike k.secretKeys t)
    (hsilent : ∀ body d, reply = .response ⟨200, body⟩ → k.document? body = some d → k.Silent d) :
    (Entry.afterReading s (k.afterGet c key s reply)).Alike k.secretKeys
      (Entry.afterReading t (k.afterGet c key t reply)) := by
  by_cases hfound : ∃ body d, reply = .response ⟨200, body⟩ ∧ k.document? body = some d
  · obtain ⟨body, d, rfl, hdocument⟩ := hfound
    have hd := hsilent body d rfl hdocument
    rw [afterGet_found hdocument, afterGet_found hdocument, Entry.afterReading, Entry.afterReading,
      same_refreshed_alike hd h]
    exact ⟨rfl, refreshed_alike hd h key⟩
  · cases hanswer : c.answered .get (k.path key) none reply >>=
        decodeBody (k.path key) k.schema.decode? with
    | ok d =>
      have hpresent : k.afterGet c key s reply = (.ok .present, k.refreshed key d s) := by
        rw [afterGet, hanswer]
      obtain ⟨body, d', hreply, hdocument, -⟩ := exists_document_of_afterGet hpresent
      exact absurd ⟨body, d', hreply, hdocument⟩ hfound
    | error failure =>
      simp only [afterGet, hanswer]
      split
      · exact ⟨rfl, h.clearId⟩
      · exact ⟨rfl, h⟩

end Kind

namespace Entry
variable {σ : Type} {ep : Endpoint σ} {near : σ → σ → Prop} {c : Client} {e e' : Entry}
  {op : Operation}

def secretKeys (e : Entry) : List String := (Kind.ofTag? e.kind).elim [] Kind.secretKeys

structure Alike (e e' : Entry) : Prop where
  kind : e.kind = e'.kind
  state : e.state.Alike e.secretKeys e'.state

theorem secretKeys_of_find {k : Kind} (hk : Kind.find e.kind = .ok k) :
    e.secretKeys = k.secretKeys := by
  rw [secretKeys, Kind.ofTag?_of_find hk]
  rfl

theorem Alike.hasId (h : e.Alike e') : e'.state.hasId = e.state.hasId :=
  congrArg Option.isSome h.state.id.symm

/-- However often it is read from, a server does not tell the secrets of an entry. -/
def Withheld (ep : Endpoint σ) (c : Client) (w : σ) (e : Entry) : Prop :=
  ∀ w', ep.Reads w w' → ∀ k key, e.resource? = some (k, key) → ∀ body d,
    (ep.answer (c.request .get (k.path key) none) w').1 = .response ⟨200, body⟩ →
    k.document? body = some d → k.Silent d

theorem step_twins (hb : ep.Blind near) (h : e.Alike e') (hop : op ≠ .refresh) :
    (e.step c op).Twins ep near (Step.Alike e.secretKeys) (e'.step c op) := by
  cases hk : Kind.find e.kind with
  | error failure =>
    rw [step_of_unknown hk, step_of_unknown (h.kind ▸ hk)]
    exact .settled ⟨rfl, h.state⟩
  | ok k =>
    have hk' : Kind.find e'.kind = .ok k := h.kind ▸ hk
    have hstate := h.state
    rw [secretKeys_of_find hk] at hstate ⊢
    cases op with
    | refresh => exact absurd rfl hop
    | apply =>
      rw [step_apply (Kind.tag_of_find hk).symm, step_apply (Kind.tag_of_find hk').symm, change,
        change, h.hasId]
      exact Kind.write_twins hb hstate _
    | destroy =>
      have hop' : Operation.destroy ≠ .apply := by decide
      cases hid : e.state.hasId with
      | false =>
        rw [step_of_idle hk hid hop', step_of_idle hk' (h.hasId.trans hid) hop']
        exact .settled ⟨rfl, hstate⟩
      | true =>
        rw [step_destroy hk hid, step_destroy hk' (h.hasId.trans hid)]
        exact Kind.delete_twins hb hstate

theorem step_refresh_twins {w : σ} (hw : Withheld ep c w e) (h : e.Alike e') :
    (e.step c .refresh).Twins ep (fun a b => a = b ∧ ep.Reads w a) (Step.Alike e.secretKeys)
      (e'.step c .refresh) := by
  cases hk : Kind.find e.kind with
  | error failure =>
    rw [step_of_unknown hk, step_of_unknown (h.kind ▸ hk)]
    exact .settled ⟨rfl, h.state⟩
  | ok k =>
    have hk' : Kind.find e'.kind = .ok k := h.kind ▸ hk
    have hstate := h.state
    rw [secretKeys_of_find hk] at hstate ⊢
    have hop : Operation.refresh ≠ .apply := by decide
    cases hid : e.state.hasId with
    | false =>
      rw [step_of_idle hk hid hop, step_of_idle hk' (h.hasId.trans hid) hop]
      exact .settled ⟨rfl, hstate⟩
    | true =>
      rw [step_refresh hk hid, step_refresh hk' (h.hasId.trans hid), refresh_eq, refresh_eq]
      cases hs : k.keyed e.state with
      | error failure =>
        rw [Kind.read_of_error hs, Kind.read_of_error (Kind.keyed_error_alike hstate hs)]
        exact .settled ⟨rfl, hstate⟩
      | ok r =>
        obtain ⟨r', ht, hkey, -⟩ := Kind.exists_keyed_alike hstate hs
        rw [Kind.read_of_keyed hs, Kind.read_of_keyed ht, hkey]
        refine .exchange rfl ?_ ?_
        · rintro w' _ ⟨rfl, hreads⟩
          exact ⟨rfl, hreads.arrive rfl⟩
        · rintro w' _ ⟨rfl, hreads⟩
          refine ⟨Kind.afterReading_alike hstate ?_, rfl, hreads.answer rfl⟩
          exact hw w' hreads k _ (resource?_of_keyed (Kind.ofTag?_of_find hk) hs)

theorem Alike.after (h : e.Alike e') {step step' : Step ApplyResult}
    (hstep : step.Alike e.secretKeys step') (index : Nat) :
    Paired Alike (e.after index step) (e'.after index step') := by
  have hreported : reported step.1 = reported step'.1 := by
    have hresult := hstep.result
    revert hresult
    cases step.1 <;> cases step'.1
    case ok.ok => exact fun hsame => Except.ok.inj hsame
    case ok.error | error.ok => exact nofun
    case error.error => exact fun hsame => congrArg ApplyResult.failed (Except.error.inj hsame)
  refine ⟨⟨h.kind, hstep.state⟩, ?_⟩
  simp only [Entry.after, h.kind, hreported, label, h.state.id, hstep.state.id]

end Entry

namespace Execution
variable {σ : Type} {x y : Execution σ} {w w' : σ}

structure Alike (x y : Execution σ) : Prop where
  endpoint : y.endpoint = x.endpoint
  client : y.client = x.client
  operation : y.operation = x.operation
  jobs : y.jobs = x.jobs
  entries : List.Forall₂ Entry.Alike x.entries y.entries

/-- The worlds in which batches with different secrets may run: ones that a server which is blind to
bodies cannot tell apart, or, for a refresh, one in which the server does not tell secrets. -/
inductive Discreet (x : Execution σ) : σ → σ → Prop
  | blind {near : σ → σ → Prop} {w w' : σ} (hop : x.operation ≠ .refresh)
      (hb : x.endpoint.Blind near) (hw : near w w') : Discreet x w w'
  | withheld {w : σ} (hop : x.operation = .refresh)
      (hw : ∀ e ∈ x.entries, e.Withheld x.endpoint x.client w) : Discreet x w w

/-- Batches mirror each other if the steps of their entries do. -/
theorem Alike.mirrors (h : x.Alike y) {near : σ → σ → Prop}
    (hstep : ∀ e ∈ x.entries, ∀ e', e.Alike e' →
      (e.step x.client x.operation).Twins x.endpoint near (Step.Alike e.secretKeys)
        (e'.step x.client x.operation)) :
    Mirrors near Entry.Alike x y := by
  obtain ⟨hlength, hentries⟩ := List.forall₂_iff_get.1 h.entries
  have hentry : ∀ (i : Fin x.entries.length) (j : Fin y.entries.length), i.val = j.val →
      (x.entry i).Alike (y.entry j) := by
    rintro i ⟨j, hj⟩ rfl
    exact hentries i i.isLt hj
  exact {
    endpoint := h.endpoint
    operation := h.operation
    jobs := h.jobs
    length := hlength
    phase := fun i j hij => by rw [phase, phase, h.operation, (hentry i j hij).kind]
    entry := hentry
    call := fun i j hij => by
      rw [call, call, h.client, h.operation, Entry.run_eq, Entry.run_eq, ← hij]
      refine (hstep _ (List.getElem_mem i.isLt) _ (hentry i j hij)).map ?_
      exact fun step step' halike => (hentry i j hij).after halike i }

/-- Secrets do not reach reports. Over entries that agree but for their secrets, batches run by the
same schedules to the same outcomes, down to the texts of their failures, and what remains of the
entries agrees but for their secrets again. -/
theorem secrets_unseen (h : x.Alike y) (hworlds : x.Discreet w w') :
    x.Shadowed Entry.Alike y w w' := by
  cases hworlds with
  | blind hop hb hw =>
    exact (h.mirrors fun e _ e' halike => Entry.step_twins hb halike hop).shadowed hw
  | withheld hop hw =>
    have hmirrors : Mirrors (fun a b => a = b ∧ x.endpoint.Reads w a) Entry.Alike x y := by
      refine h.mirrors fun e he e' halike => ?_
      rw [hop]
      exact Entry.step_refresh_twins (hw e he) halike
    exact hmirrors.shadowed ⟨rfl, .refl⟩

def busy : Endpoint Unit := ⟨fun _ w => w, fun _ w => (.response ⟨503, []⟩, w)⟩

def guarded (passphrase : String) : Entry :=
  ⟨"snmp", (((Kind.snmp.bare "abc123").set "username" (.string "monitor")).set "auth_passphrase"
    (.string passphrase)).setId "snmp_abc123"⟩

theorem guarded_alike {a b : String} (ha : a ≠ "") (hb : b ≠ "") :
    (guarded a).Alike (guarded b) := by
  refine ⟨rfl, rfl, fun x => ?_⟩
  by_cases hx : x = "auth_passphrase"
  · subst hx
    have hsecret : "auth_passphrase" ∈ (guarded a).secretKeys := by
      rw [Entry.secretKeys_of_find (k := .snmp) rfl]
      decide
    exact .inr ⟨hsecret, a, b, ha, hb, by simp [guarded], by simp [guarded]⟩
  · exact .inl (by simp [guarded, hx])

theorem keyed_guarded (passphrase : String) : Kind.snmp.keyed (guarded passphrase).state =
    .ok (⟨"abc123", false, "", "", "", "", "monitor", "", passphrase, "", "", []⟩ : Snmp) :=
  Kind.keyed_eq_ok_iff.2
    ⟨rfl, (by decide : "abc123" ≠ ""), (by decide : isPathSegment "abc123" = true)⟩

theorem withheld_guarded (passphrase : String) :
    (guarded passphrase).Withheld DocumentServer.endpoint .blank forgetful := by
  have hresource : (guarded passphrase).resource? = some (.snmp, "abc123") :=
    Entry.resource?_of_keyed rfl (keyed_guarded passphrase)
  intro w' hreads k key hk body d hreply hd
  cases hresource.symm.trans hk
  rw [DocumentServer.replies_endpoint forgetful w' hreads _ rfl] at hreply
  have hdefaults : Client.payload SnmpDocument.defaults.encode = body := by
    cases hreply
    rfl
  rw [← hdefaults] at hd
  cases (Kind.snmp.document?_payload SnmpDocument.defaults).symm.trans hd
  exact nofun

def rejected (passphrase : String) : Execution Unit :=
  ⟨busy, .blank, .apply, 1, [guarded passphrase]⟩

def reread (passphrase : String) : Execution DocumentServer :=
  ⟨DocumentServer.endpoint, .blank, .refresh, 1, [guarded passphrase]⟩

/-- Whichever of two passphrases the agent has, both batches report the same. -/
theorem secrets_unseen_guarded :
    (rejected "secret").Shadowed Entry.Alike (rejected "hunter2") () () ∧
    (reread "secret").Shadowed Entry.Alike (reread "hunter2") forgetful forgetful := by
  have halike : List.Forall₂ Entry.Alike [guarded "secret"] [guarded "hunter2"] :=
    .cons (guarded_alike (by decide) (by decide)) .nil
  have hblind : busy.Blind fun _ _ => True := ⟨fun _ _ => trivial, fun _ _ => ⟨rfl, trivial⟩⟩
  have hwithheld : ∀ e ∈ [guarded "secret"], e.Withheld DocumentServer.endpoint .blank forgetful :=
    List.forall_mem_singleton.2 (withheld_guarded "secret")
  exact ⟨secrets_unseen ⟨rfl, rfl, rfl, rfl, halike⟩ (.blind (by decide) hblind trivial),
    secrets_unseen ⟨rfl, rfl, rfl, rfl, halike⟩ (.withheld rfl hwithheld)⟩

end Execution
end Reconciler
