import Reconciler.Proofs.Batch.Applying
import Reconciler.Proofs.Batch.Independence
import Reconciler.Proofs.Declared.Sameness
import Reconciler.Proofs.Resource.Convergence
import Reconciler.Proofs.Resource.Rereading

/-! Refreshing a batch. A refresh only reads, so as long as the answers to readings stay the same
each entry comes to what its own answer makes of it, under every schedule; and a second refresh
finds nothing more to do. -/
namespace Reconciler
open DocumentServer (pathOf)

namespace Endpoint
variable {σ : Type} {e : Endpoint σ} {w w' w'' : σ} {reply : Request → Reply}

inductive Reads (e : Endpoint σ) (w : σ) : σ → Prop
  | refl : Reads e w w
  | arrive {w' : σ} {request : Request} (h : Reads e w w') (hget : request.method = .get) :
      Reads e w (e.arrive request w')
  | answer {w' : σ} {request : Request} (h : Reads e w w') (hget : request.method = .get) :
      Reads e w (e.answer request w').2

theorem Reads.trans (h : e.Reads w w') (h' : e.Reads w' w'') : e.Reads w w'' := by
  induction h' with
  | refl => exact h
  | arrive _ hget ih => exact ih.arrive hget
  | answer _ hget ih => exact ih.answer hget

/-- While it is only read from, a server answers every reading in this way. -/
def Replies (e : Endpoint σ) (w : σ) (reply : Request → Reply) : Prop :=
  ∀ w', e.Reads w w' → ∀ request, request.method = .get → (e.answer request w').1 = reply request

theorem Replies.after (h : e.Replies w reply) (hreads : e.Reads w w') : e.Replies w' reply :=
  fun _ hw' => h _ (hreads.trans hw')

/-- Reading does not change what a server answers to readings. -/
def Steady (e : Endpoint σ) (w : σ) : Prop := ∃ reply, e.Replies w reply

end Endpoint

namespace DocumentServer

theorem effect_get_snd (s : DocumentServer) {request : Request} (hget : request.method = .get) :
    (s.effect request).2 = s.documents.get? (pathOf request.url) := by
  rw [effect, hget]
  cases s.scripts.lookup (.get, pathOf request.url) with
  | some reply => rfl
  | none => cases s.documents.get? (pathOf request.url) <;> rfl

theorem reads_endpoint {w w' : DocumentServer} (h : endpoint.Reads w w') :
    w'.scripts = w.scripts ∧ w'.documents = w.documents := by
  induction h with
  | refl => exact ⟨rfl, rfl⟩
  | arrive _ _ ih => exact ⟨(scripts_arrive ..).trans ih.1, (documents_arrive ..).trans ih.2⟩
  | @answer w' request _ hget ih =>
    have hsame : (endpoint.answer request w').2.documents = w'.documents := by
      refine Ascending.ext_get? _ _ fun p => ?_
      rw [get?_answer_endpoint, effect_get_snd w' hget]
      split
      · next hp => rw [hp]
      · rfl
    exact ⟨(scripts_answer_endpoint ..).trans ih.1, hsame.trans ih.2⟩

/-- A document server answers readings by what it holds. -/
theorem replies_endpoint (w : DocumentServer) :
    endpoint.Replies w fun request => (w.effect request).1 := by
  intro w' hw' request _
  obtain ⟨hscripts, hdocuments⟩ := reads_endpoint hw'
  rw [answer_endpoint_fst, effect_congr hscripts (by rw [hdocuments])]

/-- Whatever is stored and scripted, a document server is steady. -/
theorem steady_endpoint (w : DocumentServer) : endpoint.Steady w := ⟨_, replies_endpoint w⟩

end DocumentServer

def ApplyResult.again : ApplyResult → ApplyResult
  | .failed error => .failed error
  | .noChange | .created | .modified | .removed => .noChange

theorem ApplyResult.again_ne_removed (result : ApplyResult) : result.again ≠ .removed := by
  cases result <;> exact nofun

namespace Entry
variable {e : Entry} {c : Client} {reply : Request → Reply}

theorem method_of_refresh {request : Request} (h : (e.step c .refresh).request? = some request) :
    request.method = .get := by
  rcases e.step_refresh_cases c with ⟨result, hstep, -⟩ | ⟨k, r, -, -, hstep⟩
  · rw [hstep] at h
    cases h
  · rw [hstep] at h
    cases h
    rfl

def refreshing (c : Client) (reply : Request → Reply) (e : Entry) : Step ApplyResult :=
  ((e.step c .refresh).run (.replying reply) ()).1

def onward (c : Client) (reply : Request → Reply) (e : Entry) : Entry :=
  ⟨e.kind, (e.refreshing c reply).2⟩

def observed (c : Client) (reply : Request → Reply) (e : Entry) : ApplyResult :=
  reported (e.refreshing c reply).1

theorem refreshing_of_hasId {k : Kind} (hk : Kind.find e.kind = .ok k)
    (hid : e.state.hasId = true) : e.refreshing c reply =
      afterReading e.state ((k.read c e.state).run (.replying reply) ()).1 := by
  rw [refreshing, step_refresh hk hid, refresh_eq, Call.run_map]

theorem observed_of_keyed {k : Kind} (hk : Kind.find e.kind = .ok k)
    (hid : e.state.hasId = true) {r : k.schema.Record} (hr : k.keyed e.state = .ok r)
    {answer : Reply}
    (hreply : reply (c.request .get (k.path (k.schema.naturalKey r)) none) = answer) :
    e.observed c reply = reported (afterReading e.state
      (k.afterGet c (k.schema.naturalKey r) e.state answer)).1 := by
  rw [observed, refreshing_of_hasId hk hid, Kind.read_of_keyed hr, ← hreply]
  rfl

/-- Where a refresh leaves the state as it was, the next one comes to the same. -/
theorem refreshing_onward_of_same {result : Except Failure ApplyResult}
    (hread : e.refreshing c reply = (result, e.state))
    (hsame : ∀ x, result = .ok x → x = .noChange) :
    (e.onward c reply).refreshing c reply = (result.map fun _ => .noChange, e.state) := by
  have honward : e.onward c reply = e := by rw [onward, hread]
  rw [honward, hread]
  cases result with
  | error failure => rfl
  | ok x =>
    obtain rfl := hsame x rfl
    rfl

/-- An entry that a refresh does not remove is left alone by the next one, which fails as the first
one did or finds no change. -/
theorem refreshing_onward (h : (e.refreshing c reply).1 ≠ .ok .removed) :
    (e.onward c reply).refreshing c reply =
      ((e.refreshing c reply).1.map fun _ => .noChange, (e.refreshing c reply).2) := by
  rcases e.step_refresh_cases c with ⟨result, hstep, hsame⟩ | ⟨k, r, hk, hr, hstep⟩
  · have hread : e.refreshing c reply = (result, e.state) := by
      rw [refreshing, hstep, Call.run_settled]
    rw [refreshing_onward_of_same hread hsame, hread]
  · have hread : e.refreshing c reply = afterReading e.state
        ((k.read c e.state).run (.replying reply) ()).1 := by
      rw [refreshing, hstep, Kind.read_of_keyed hr]
      rfl
    have hkeeps : Step.KeepsOnError e.state ((k.read c e.state).run (.replying reply) ()).1 :=
      Kind.read_keepsOnError.run _ _
    obtain ⟨⟨result, s'⟩, hrun⟩ :
        ∃ step, ((k.read c e.state).run (.replying reply) ()).1 = step := ⟨_, rfl⟩
    rw [hrun] at hread hkeeps
    cases result with
    | error failure =>
      obtain rfl : s' = e.state := hkeeps failure rfl
      rw [refreshing_onward_of_same hread nofun, hread]
      rfl
    | ok presence =>
      cases presence with
      | absent => exact absurd (congrArg Prod.fst hread) h
      | present =>
        obtain ⟨hid', hagain⟩ := Kind.read_again hrun
        have honward : e.onward c reply = ⟨e.kind, s'⟩ := by rw [onward, hread]; rfl
        rw [honward, refreshing_of_hasId (e := ⟨e.kind, s'⟩) hk hid', hagain, hread]
        simp [afterReading, Except.map, s'.same_refl]

/-- A failure stays a failure, and all else that remains has nothing new to report. -/
theorem observed_onward (h : e.observed c reply ≠ .removed) :
    (e.onward c reply).observed c reply = (e.observed c reply).again ∧
      (e.onward c reply).onward c reply = e.onward c reply := by
  have hstep : (e.refreshing c reply).1 ≠ .ok .removed := fun hremoved =>
    h (congrArg reported hremoved)
  have hhonest : (e.refreshing c reply).Honest e.state := step_honest.run _ _
  have hagain := refreshing_onward hstep
  refine ⟨?_, by rw [onward, hagain]; rfl⟩
  rw [observed, observed, hagain]
  cases hresult : (e.refreshing c reply).1 with
  | error failure => rfl
  | ok result =>
    have hsuccess := hhonest.succeeds result hresult
    cases result with
    | failed error => cases hsuccess
    | noChange | created | modified | removed => rfl

end Entry

namespace Execution
variable {σ : Type} {x : Execution σ} {w : σ} {m : Moment x.entries.length σ}
  {i : Fin x.entries.length} {reply : Request → Reply}

section Refreshing
variable (hop : x.operation = .refresh)
include hop

theorem method_of_call {request : Request} {receive : Reply → Entry × Outcome}
    (hcall : x.call i = .exchange request receive) : request.method = .get := by
  have hrequest : (x.call i).request? = some request := by rw [hcall, Call.request?]
  rw [call, hop, Entry.run_eq, Call.request?_map] at hrequest
  exact Entry.method_of_refresh hrequest

/-- A refresh does nothing but read. -/
theorem reads_of_reaches (h : x.Reaches w m) : x.endpoint.Reads w m.world := by
  induction h with
  | refl => exact .refl
  | tail hbefore hstep ih =>
    cases hstep with
    | settle | advance => exact ih
    | ask _ _ _ _ hcall => exact ih.arrive (method_of_call hop hcall)
    | answer hasked =>
      exact ih.answer (method_of_call hop ((sound_of_reaches hbefore).asked _ _ _ hasked))

variable (hreplies : x.endpoint.Replies w reply)
include hreplies

/-- Under every schedule an entry comes to what the answers make of it. -/
theorem Made.refreshing {step : Step ApplyResult} (h : x.Made w m i step) :
    step = (x.entry i).refreshing x.client reply := by
  obtain ⟨m₀, -, hm₀, -, -, -, -, rfl⟩ := h
  rw [hop, Entry.refreshing]
  cases hstep : (x.entry i).step x.client .refresh with
  | settled => rfl
  | exchange request receive =>
    have hget : request.method = .get := Entry.method_of_refresh (by rw [hstep, Call.request?])
    exact congrArg receive (hreplies _ (reads_of_reaches hop hm₀) _ hget)

variable (hm : x.Reaches w m) (hstop : x.Stopped m)
include hm hstop

/-- Each entry ends as the answers have it, whatever the schedule. -/
theorem slots_refreshed :
    x.slots m = x.closed fun i => (x.entry i).refreshing x.client reply := by
  refine slots_eq_closed fun i => ?_
  obtain ⟨result, hi⟩ := ((sound_of_reaches hm).finished_of_stopped hstop).2 i
  obtain ⟨step, hmade, rfl⟩ := exists_made hm hi
  rw [hi, hmade.refreshing hop hreplies]

theorem results_refreshed : (Batch.report (x.slots m)).outcomes.map (·.result) =
    x.entries.map (Entry.observed x.client reply) := by
  rw [slots_refreshed hop hreplies hm hstop, outcomes_closed, List.map_map]
  conv_rhs => rw [← map_entry, List.map_map]
  rfl

theorem remaining_refreshed : Batch.remaining x.operation (x.slots m) =
    (x.entries.filter fun e => e.observed x.client reply ≠ .removed).map
      (Entry.onward x.client reply) := by
  rw [slots_refreshed hop hreplies hm hstop, remaining_closed_refresh x _ hop]
  conv_rhs => rw [← map_entry, List.filter_map, List.map_map]
  rfl

end Refreshing

/-- A refresh settles a batch. While a server answers its readings alike, to refresh the entries
that remain once more removes none of them and leaves them all as they are. Those that failed fail
with the same text, and there is no change in any other. -/
theorem refresh_settles (hop : x.operation = .refresh) (hsteady : x.endpoint.Steady w) :
    x.Ends (fun m => ∀ y : Execution σ, y.endpoint = x.endpoint → y.client = x.client →
      y.operation = .refresh → y.entries = Batch.remaining x.operation (x.slots m) →
      y.Ends (fun m' =>
        Batch.remaining y.operation (y.slots m') = y.entries ∧
        (Batch.report (y.slots m')).outcomes.map (·.result) =
          (((Batch.report (x.slots m)).outcomes.map (·.result)).filter (· ≠ .removed)).map
            ApplyResult.again) (y.start m.world)) (x.start w) := by
  obtain ⟨reply, hreplies⟩ := hsteady
  refine ends_of_leads fun m hm hstop y hendpoint hclient hyop hentries => ?_
  have hlater : y.endpoint.Replies m.world reply :=
    hendpoint ▸ hreplies.after (reads_of_reaches hop hm)
  refine ends_of_leads fun m' hm' hstop' => ?_
  have hresults := results_refreshed hop hreplies hm hstop
  have hremaining := remaining_refreshed hop hreplies hm hstop
  have hresults' := results_refreshed hyop hlater hm' hstop'
  have hremaining' := remaining_refreshed hyop hlater hm' hstop'
  rw [hclient, hentries, hremaining] at hresults' hremaining'
  have hstays : ∀ e ∈ x.entries.filter fun e => e.observed x.client reply ≠ .removed,
      (e.onward x.client reply).observed x.client reply = (e.observed x.client reply).again ∧
        (e.onward x.client reply).onward x.client reply = e.onward x.client reply := by
    intro e he
    exact Entry.observed_onward (by simpa using (List.mem_filter.1 he).2)
  refine ⟨?_, ?_⟩
  · have hall : ∀ e ∈ (x.entries.filter fun e => e.observed x.client reply ≠ .removed).map
        (Entry.onward x.client reply), e.observed x.client reply ≠ .removed := by
      rw [List.forall_mem_map]
      intro e he
      rw [(hstays e he).1]
      exact ApplyResult.again_ne_removed _
    rw [hremaining', List.filter_eq_self.2 (by simpa using hall), List.map_map, hentries,
      hremaining]
    exact List.map_congr_left fun e he => (hstays e he).2
  · rw [hresults', hresults, List.filter_map, List.map_map, List.map_map]
    exact List.map_congr_left fun e he => (hstays e he).1

def agent : Entry := ⟨"snmp", (Kind.snmp.schema.project Snmp.monitored .empty).setId "snmp_abc123"⟩

def host : Entry := ⟨"node", (Kind.node.bare "abc123").setId "node_abc123"⟩

def known : Execution DocumentServer where
  endpoint := DocumentServer.endpoint
  client := .blank
  operation := .refresh
  jobs := 2
  entries := [agent, host]

def forgetful : DocumentServer :=
  { DocumentServer.empty with
    documents := OrderedMap.empty.insert "/node/abc123/config/snmp"
      (Client.payload SnmpDocument.defaults.encode) }

/-- The node is dropped and the agent takes over the defaults. After that it does not change. -/
theorem refresh_settles_known : ∃ (m : Moment known.entries.length DocumentServer)
    (y : Execution DocumentServer) (m' : Moment y.entries.length DocumentServer),
    known.Reaches forgetful m ∧ y.entries = Batch.remaining .refresh (known.slots m) ∧
    y.Reaches m.world m' ∧ Batch.remaining .refresh (y.slots m') = y.entries ∧
    (Batch.report (y.slots m')).outcomes.map (·.result) = [.noChange] := by
  obtain ⟨m, hm, hstop, -⟩ := exists_reaches_runSlots (x := known) (.refl _) forgetful
  let y : Execution DocumentServer :=
    { known with entries := Batch.remaining .refresh (known.slots m) }
  obtain ⟨m', hm', hstop', -⟩ := exists_reaches_runSlots (x := y) (.refl _) m.world
  obtain ⟨hsame, hresults⟩ := ((refresh_settles rfl (DocumentServer.steady_endpoint
    forgetful)).of_leads hm hstop y rfl rfl rfl rfl).of_leads hm' hstop'
  refine ⟨m, y, m', hm, rfl, hm', hsame, hresults.trans ?_⟩
  let reply : Request → Reply := fun request => (forgetful.effect request).1
  have hhost : host.observed .blank reply = .removed := by
    have hkeyed : Kind.node.keyed (Kind.node.bare "abc123") = .ok _ :=
      Kind.keyed_bare (by decide) (by decide)
    exact Entry.observed_of_keyed (k := .node) (e := host) rfl rfl hkeyed rfl
  have hagent : agent.observed .blank reply = Entry.reported (Entry.afterReading agent.state
      (.ok .present, Kind.snmp.refreshed "abc123" SnmpDocument.defaults agent.state)).1 := by
    have hreply : reply (Client.blank.request .get (Kind.snmp.path "abc123") none) =
        .response ⟨200, Client.payload SnmpDocument.defaults.encode⟩ := rfl
    rw [← Kind.afterGet_found (Kind.snmp.document?_payload SnmpDocument.defaults)]
    exact Entry.observed_of_keyed (k := .snmp) (e := agent) rfl rfl Kind.keyed_monitored hreply
  rw [results_refreshed rfl (DocumentServer.replies_endpoint forgetful) hm hstop]
  change (([agent.observed .blank reply, host.observed .blank reply].filter
    (· ≠ ApplyResult.removed)).map ApplyResult.again) = [.noChange]
  rw [hhost, hagent, Entry.afterReading]
  split <;> rfl

end Execution
end Reconciler
