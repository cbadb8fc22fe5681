import Reconciler.Proofs.Api.Call
import Reconciler.Proofs.Api.Client
import Reconciler.Proofs.Api.Sharing
import Reconciler.Proofs.Json.Reader
import Reconciler.Proofs.Text.Utf8

/-! Connecting, and all that a client sends once it is connected. Without credentials and a host
nothing is sent; with them, the lookup of the organization comes first, and what it finds decides
whether anything else follows. -/
namespace Reconciler

theorem present?_eq_some_iff {setting : Option String} {x : String} :
    present? setting = some x ↔ setting = some x ∧ x ≠ "" := by
  simp [present?, Option.filter_eq_some_iff]

theorem present?_eq_none_iff {setting : Option String} :
    present? setting = none ↔ ∀ x, setting = some x → x = "" := by
  simp [present?, Option.filter_eq_none_iff]

namespace ClientConfig
variable {config : ClientConfig} {credentials : Credentials}

/-- The credentials of a configuration: a token that is not empty, or without one an API key and
its secret, neither of them empty. -/
inductive Names (config : ClientConfig) : Credentials → Prop
  | token {token : String} (h : config.token = some token) (hne : token ≠ "") :
    Names config (.token token)
  | apiKey {key secret : String} (hnone : ∀ token, config.token = some token → token = "")
    (hkey : config.apiKey = some key) (hkey' : key ≠ "")
    (hsecret : config.apiSecret = some secret) (hsecret' : secret ≠ "") :
    Names config (.apiKey key secret)

def bareHost (config : ClientConfig) : List Char :=
  Text.dropEndWhile (· == '/') (Text.trim config.host.toList)

/-- The organization that was found may be the one of the credentials: none is configured, or an
empty one, or this one. -/
def Allows (config : ClientConfig) (found : Organization) : Prop :=
  ∀ expected, config.organizationId = some expected → expected = "" ∨ expected = found.id

/-- Credentials are those that the configuration names. -/
theorem resolve_eq_ok_iff :
    Credentials.resolve config.token config.apiKey config.apiSecret = .ok credentials ↔
      config.Names credentials := by
  unfold Credentials.resolve
  constructor
  · intro h
    split at h
    · next ht =>
      cases h
      obtain ⟨ht, hne⟩ := present?_eq_some_iff.1 ht
      exact .token ht hne
    · next ht hk hs =>
      cases h
      obtain ⟨hkey, hkey'⟩ := present?_eq_some_iff.1 hk
      obtain ⟨hsecret, hsecret'⟩ := present?_eq_some_iff.1 hs
      exact .apiKey (present?_eq_none_iff.1 ht) hkey hkey' hsecret hsecret'
    · cases h
    · cases h
    · cases h
  · rintro (⟨ht, hne⟩ | ⟨ht, hkey, hkey', hsecret, hsecret'⟩)
    · rw [present?_eq_some_iff.2 ⟨ht, hne⟩]
    · rw [present?_eq_none_iff.2 ht, present?_eq_some_iff.2 ⟨hkey, hkey'⟩,
        present?_eq_some_iff.2 ⟨hsecret, hsecret'⟩]

theorem Names.eq {credentials' : Credentials} (h : config.Names credentials)
    (h' : config.Names credentials') : credentials = credentials' :=
  Except.ok.inj ((resolve_eq_ok_iff.2 h).symm.trans (resolve_eq_ok_iff.2 h'))

theorem baseUrl_of_bareHost_eq_nil (h : config.bareHost = []) :
    config.baseUrl = .error (.configuration "host is required") := by
  unfold bareHost at h
  simp only [baseUrl, h, List.isEmpty_nil, if_true]

theorem exists_baseUrl (h : config.bareHost ≠ []) : ∃ base, config.baseUrl = .ok base := by
  unfold bareHost at h
  simp only [baseUrl, List.isEmpty_iff, if_neg h]
  split <;> exact ⟨_, rfl⟩

end ClientConfig

namespace Client
variable {config : ClientConfig} {credentials : Credentials} {base : String}

def lookup (base : String) (credentials : Credentials) : Request where
  method := .get
  url := base ++ "/v2/organization"
  headers := [("Authorization", credentials.authorization), ("Accept", "application/json")]
  body := none

def unverified (base : String) (credentials : Credentials) : Client :=
  ⟨base, credentials, ⟨"", ""⟩⟩

def afterLookup (config : ClientConfig) (base : String) (credentials : Credentials)
    (reply : Reply) : Except ApiError Client :=
  ((unverified base credentials).answered .get organizationPath none reply >>=
      decodeBody organizationPath Organization.ofJson?) >>=
    accept config (unverified base credentials)

theorem connect_of_error {e : ApiError}
    (h : Credentials.resolve config.token config.apiKey config.apiSecret = .error e) :
    connect config = .settled (.error e) := by
  unfold connect
  rw [h]

theorem connect_of_no_host (h : config.Names credentials) (hhost : config.bareHost = []) :
    connect config = .settled (.error (.configuration "host is required")) := by
  unfold connect
  rw [ClientConfig.resolve_eq_ok_iff.2 h, ClientConfig.baseUrl_of_bareHost_eq_nil hhost]

theorem connect_of_baseUrl (h : config.Names credentials) (hbase : config.baseUrl = .ok base) :
    connect config = .exchange (lookup base credentials) (afterLookup config base credentials) := by
  unfold connect
  rw [ClientConfig.resolve_eq_ok_iff.2 h, hbase]
  rfl

/-- Credentials are looked at first, then the host, and only with both is the server asked. -/
theorem connect_cases (config : ClientConfig) :
    (∃ e, Credentials.resolve config.token config.apiKey config.apiSecret = .error e ∧
      connect config = .settled (.error e)) ∨
    (∃ credentials, config.Names credentials ∧ config.bareHost = [] ∧
      connect config = .settled (.error (.configuration "host is required"))) ∨
    ∃ credentials base, config.Names credentials ∧ config.bareHost ≠ [] ∧
      config.baseUrl = .ok base ∧ connect config =
        .exchange (lookup base credentials) (afterLookup config base credentials) := by
  cases hresolve : Credentials.resolve config.token config.apiKey config.apiSecret with
  | error e => exact .inl ⟨e, rfl, connect_of_error hresolve⟩
  | ok credentials =>
    have hnames := ClientConfig.resolve_eq_ok_iff.1 hresolve
    by_cases hhost : config.bareHost = []
    · exact .inr (.inl ⟨credentials, hnames, hhost, connect_of_no_host hnames hhost⟩)
    · obtain ⟨base, hbase⟩ := ClientConfig.exists_baseUrl hhost
      exact .inr (.inr ⟨credentials, base, hnames, hhost, hbase, connect_of_baseUrl hnames hbase⟩)

/-- A client is accepted just if its organization is allowed. -/
theorem accept_eq_ok_iff {c c' : Client} {found : Organization} :
    accept config c found = .ok c' ↔
      config.Allows found ∧ { c with organization := found } = c' := by
  unfold accept ClientConfig.Allows
  cases hid : present? config.organizationId with
  | none =>
    have hempty := present?_eq_none_iff.1 hid
    rw [Except.ok.injEq]
    exact (and_iff_right fun expected hexpected => .inl (hempty expected hexpected)).symm
  | some expected =>
    obtain ⟨hexpected, hne⟩ := present?_eq_some_iff.1 hid
    simp only [hexpected, Option.some.injEq, forall_eq', hne, false_or]
    split
    · next hsame => rw [Except.ok.injEq, and_iff_right hsame]
    · next hother => exact iff_of_false nofun fun h => hother h.1

theorem answered_not_ok {c : Client} {method : Method} {path : String}
    {body : Option (List UInt8)} {reply : Reply}
    (h : ∀ answer, reply ≠ .response ⟨200, answer⟩) :
    ∃ e, c.answered method path body reply = .error e ∧
      ∀ expected actual, e ≠ .organizationMismatch expected actual := by
  cases reply with
  | lost reason => exact ⟨_, rfl, by rintro _ _ ⟨⟩⟩
  | response r =>
    obtain ⟨status, answer⟩ := r
    have h200 : status ≠ 200 := fun hstatus => h answer (by rw [hstatus])
    simp only [answered, classify, if_neg h200]
    split
    · exact ⟨_, rfl, by rintro _ _ ⟨⟩⟩
    · split <;> exact ⟨_, rfl, by rintro _ _ ⟨⟩⟩

/-- Either the reply has status 200 and names an organization, which is then looked at, or it is
reported as what it is, and no organization is. -/
theorem afterLookup_cases (config : ClientConfig) (base : String) (credentials : Credentials)
    (reply : Reply) :
    (∃ body found, reply = .response ⟨200, body⟩ ∧
      spelled? Organization.ofJson? body = some found ∧
      afterLookup config base credentials reply =
        accept config (unverified base credentials) found) ∨
    (∀ body found, reply = .response ⟨200, body⟩ →
      spelled? Organization.ofJson? body ≠ some found) ∧
      ∃ e, afterLookup config base credentials reply = .error e ∧
        ∀ expected actual, e ≠ .organizationMismatch expected actual := by
  by_cases hok : ∃ body, reply = .response ⟨200, body⟩
  · obtain ⟨body, rfl⟩ := hok
    have hafter : afterLookup config base credentials (.response ⟨200, body⟩) =
        decodeBody organizationPath Organization.ofJson? ⟨200, body⟩ >>=
          accept config (unverified base credentials) := rfl
    rw [hafter]
    cases hspelled : spelled? Organization.ofJson? body with
    | some found =>
      have hread : decodeBody organizationPath Organization.ofJson? ⟨200, body⟩ = .ok found :=
        decodeBody_eq_ok_iff.2 hspelled
      rw [hread]
      exact .inl ⟨body, found, rfl, hspelled, rfl⟩
    | none =>
      obtain ⟨reason, hreason⟩ : ∃ reason,
          decodeBody organizationPath Organization.ofJson? ⟨200, body⟩ =
            .error (.decoding organizationPath reason) := decodeBody_of_not_spelled hspelled
      rw [hreason]
      refine .inr ⟨?_, _, rfl, by rintro _ _ ⟨⟩⟩
      rintro _ found ⟨rfl⟩ hfound
      cases hspelled.symm.trans hfound
  · rw [not_exists] at hok
    obtain ⟨e, he, hother⟩ : ∃ e,
        (unverified base credentials).answered .get organizationPath none reply = .error e ∧
          ∀ expected actual, e ≠ .organizationMismatch expected actual := answered_not_ok hok
    refine .inr ⟨fun body _ hreply => absurd hreply (hok body), e, ?_, hother⟩
    rw [afterLookup, he]
    rfl

/-- A client comes of a reply with status 200 that names an allowed organization, and only of
such a reply. -/
theorem afterLookup_eq_ok_iff {reply : Reply} {c : Client} :
    afterLookup config base credentials reply = .ok c ↔ ∃ body found,
      reply = .response ⟨200, body⟩ ∧ spelled? Organization.ofJson? body = some found ∧
      config.Allows found ∧ c = ⟨base, credentials, found⟩ := by
  rcases afterLookup_cases config base credentials reply with
    ⟨body, found, rfl, hspelled, hafter⟩ | ⟨hnone, e, hafter, -⟩
  · rw [hafter, accept_eq_ok_iff]
    constructor
    · rintro ⟨hallows, rfl⟩
      exact ⟨body, found, rfl, hspelled, hallows, rfl⟩
    · rintro ⟨_, other, ⟨rfl⟩, hother, hallows, rfl⟩
      cases hspelled.symm.trans hother
      exact ⟨hallows, rfl⟩
  · rw [hafter]
    refine iff_of_false nofun ?_
    rintro ⟨body, found, hreply, hspelled, -⟩
    exact hnone body found hreply hspelled

/-- What it takes to be connected, whatever the server. -/
theorem run_connect_eq_ok_iff {σ : Type} (server : Server σ) (w : σ) {c : Client} :
    ((connect config).run server w).1 = .ok c ↔ ∃ credentials base body found,
      config.Names credentials ∧ config.baseUrl = .ok base ∧
      (server.answer (lookup base credentials) w).1 = .response ⟨200, body⟩ ∧
      spelled? Organization.ofJson? body = some found ∧ config.Allows found ∧
      c = ⟨base, credentials, found⟩ := by
  rcases connect_cases config with
    ⟨e, he, hc⟩ | ⟨_, -, hhost, hc⟩ | ⟨credentials, base, hn, -, hb, hc⟩
  · rw [hc]
    refine iff_of_false nofun ?_
    rintro ⟨_, _, _, _, hn, -⟩
    rw [ClientConfig.resolve_eq_ok_iff.2 hn] at he
    cases he
  · rw [hc]
    refine iff_of_false nofun ?_
    rintro ⟨_, _, _, _, -, hb, -⟩
    rw [ClientConfig.baseUrl_of_bareHost_eq_nil hhost] at hb
    cases hb
  · rw [hc, Call.run_exchange, afterLookup_eq_ok_iff]
    constructor
    · rintro ⟨body, found, hreply⟩
      exact ⟨credentials, base, body, found, hn, hb, hreply⟩
    · rintro ⟨_, _, body, found, hn', hb', hreply⟩
      cases hn.eq hn'
      cases hb.symm.trans hb'
      exact ⟨body, found, hreply⟩

end Client

namespace Errand

/-- Whatever a caller asks of a client, the client sends one of its own requests for it. -/
theorem request_of_call {α : Type} {c : Client} {errand : Errand α} {request : Request}
    {receive : Reply → Outcome α} (h : errand.call c = .exchange request receive) :
    ∃ method path body, request = c.request method path body := by
  cases errand with
  | get | delete =>
    cases h
    exact ⟨_, _, _, rfl⟩
  | put _ payload | post _ payload | deleteWith _ payload =>
    cases payload <;> cases h
    exact ⟨_, _, _, rfl⟩

end Errand

theorem Client.header?_authorization (c : Client) (method : Method) (path : String)
    (body : Option (List UInt8)) : (c.request method path body).header? "Authorization" =
      some c.credentials.authorization := by
  simp [Request.header?, request]

/-- How far a session has come: it waits for the reply to its lookup, or has failed, or holds a
client. -/
inductive Session.Stage
  | fresh
  | asking (receive : Reply → Except ApiError Client)
  | failed (e : ApiError)
  | connected (c : Client)

def Session.Stage.of : Except ApiError Client → Stage
  | .ok c => connected c
  | .error e => failed e

structure Session where
  stage : Session.Stage
  sent : List Request
  reply? : Option Reply

namespace Session
variable {config : ClientConfig} {session : Session}

def start : Session := ⟨.fresh, [], none⟩

/-- One step. A reply may be any, and a connected client may be asked for anything at any time. -/
inductive Moves (config : ClientConfig) : Session → Session → Prop
  | settle {outcome} {sent} {reply?} (h : Client.connect config = .settled outcome) :
      Moves config ⟨.fresh, sent, reply?⟩ ⟨.of outcome, sent, reply?⟩
  | ask {request} {receive} {sent} {reply?}
      (h : Client.connect config = .exchange request receive) :
      Moves config ⟨.fresh, sent, reply?⟩ ⟨.asking receive, sent ++ [request], reply?⟩
  | learn {receive} {sent} {reply?} (reply : Reply) :
      Moves config ⟨.asking receive, sent, reply?⟩ ⟨.of (receive reply), sent, some reply⟩
  | send {c} {sent} {reply?} {α : Type} {errand : Errand α} {request} {receive}
      (h : errand.call c = .exchange request receive) :
      Moves config ⟨.connected c, sent, reply?⟩ ⟨.connected c, sent ++ [request], reply?⟩

def Reached (config : ClientConfig) (session : Session) : Prop :=
  Relation.ReflTransGen (Moves config) start session

def Found (session : Session) (found : Organization) : Prop :=
  ∃ body, session.reply? = some (.response ⟨200, body⟩) ∧
    spelled? Organization.ofJson? body = some found

/-- What every step preserves: nothing is sent before the lookup, and what is sent after it comes
from the client that the reply to the lookup has made. -/
inductive Sound (config : ClientConfig) : Session → Prop
  | fresh : Sound config start
  | refused (e : ApiError) : Sound config ⟨.failed e, [], none⟩
  | asking {credentials} {base} (h : config.Names credentials) (hbase : config.baseUrl = .ok base) :
      Sound config ⟨.asking (Client.afterLookup config base credentials),
        [Client.lookup base credentials], none⟩
  | failed {credentials} {base} (h : config.Names credentials) (hbase : config.baseUrl = .ok base)
      (e : ApiError) (reply : Reply) :
      Sound config ⟨.failed e, [Client.lookup base credentials], some reply⟩
  | connected {credentials} {base} (h : config.Names credentials)
      (hbase : config.baseUrl = .ok base) {c} {reply}
      (hc : Client.afterLookup config base credentials reply = .ok c) {later : List Request}
      (hlater : ∀ request ∈ later, ∃ method path body, request = c.request method path body) :
      Sound config ⟨.connected c, Client.lookup base credentials :: later, some reply⟩

/-- A step keeps a session sound. -/
theorem Sound.moves {next : Session} (hs : Sound config session) (h : Moves config session next) :
    Sound config next := by
  cases h with
  | settle h =>
    cases hs
    rcases Client.connect_cases config with ⟨e, -, hc⟩ | ⟨_, -, -, hc⟩ | ⟨_, _, -, -, -, hc⟩
    · cases h.symm.trans hc
      exact .refused e
    · cases h.symm.trans hc
      exact .refused _
    · cases h.symm.trans hc
  | ask h =>
    cases hs
    rcases Client.connect_cases config with ⟨_, -, hc⟩ | ⟨_, -, -, hc⟩ | ⟨_, _, hn, -, hbase, hc⟩
    · cases h.symm.trans hc
    · cases h.symm.trans hc
    · cases h.symm.trans hc
      exact .asking hn hbase
  | learn reply =>
    cases hs with
    | @asking credentials base hn hbase =>
      cases hc : Client.afterLookup config base credentials reply with
      | error e => exact .failed hn hbase e reply
      | ok c => exact .connected hn hbase hc (List.forall_mem_nil _)
  | send h =>
    cases hs with
    | connected hn hbase hc hlater =>
      refine .connected hn hbase hc (List.forall_mem_append.2 ⟨hlater, ?_⟩)
      exact List.forall_mem_singleton.2 (Errand.request_of_call h)

theorem sound_of_reached (h : Reached config session) : Sound config session := by
  induction h with
  | refl => exact .fresh
  | tail _ hmove ih => exact ih.moves hmove

/-- Each request of a session is its lookup, or goes out with the same credentials after the lookup
has found an organization that the configuration allows for them. -/
theorem Reached.verified (h : Reached config session) : ∀ request ∈ session.sent,
    ∃ credentials base, config.Names credentials ∧ config.baseUrl = .ok base ∧
      (request = Client.lookup base credentials ∨
        request.header? "Authorization" = some credentials.authorization ∧
          ∃ found, session.Found found ∧ config.Allows found) := by
  intro request hrequest
  cases sound_of_reached h with
  | fresh | refused => cases hrequest
  | asking hn hbase => exact ⟨_, _, hn, hbase, .inl (List.mem_singleton.1 hrequest)⟩
  | failed hn hbase => exact ⟨_, _, hn, hbase, .inl (List.mem_singleton.1 hrequest)⟩
  | connected hn hbase hc hlater =>
    refine ⟨_, _, hn, hbase, (List.mem_cons.1 hrequest).imp_right fun hmem => ?_⟩
    obtain ⟨body, found, rfl, hspelled, hallows, rfl⟩ := Client.afterLookup_eq_ok_iff.1 hc
    obtain ⟨method, path, payload, rfl⟩ := hlater request hmem
    exact ⟨Client.header?_authorization .., found, ⟨body, rfl, hspelled⟩, hallows⟩

/-- Under credentials of another organization than the configured one, nothing but the lookup is
ever sent. -/
theorem Reached.only_lookup (h : Reached config session) {expected : String}
    (hexpected : config.organizationId = some expected) (hne : expected ≠ "")
    {owner : Credentials → String} (htruth : ∀ credentials found, config.Names credentials →
      session.Found found → found.id = owner credentials)
    (hother : ∀ credentials, config.Names credentials → owner credentials ≠ expected) :
    ∀ request ∈ session.sent, ∃ credentials base, config.Names credentials ∧
      config.baseUrl = .ok base ∧ request = Client.lookup base credentials := by
  intro request hrequest
  obtain ⟨credentials, base, hn, hbase, hcases⟩ := h.verified request hrequest
  refine ⟨credentials, base, hn, hbase, hcases.resolve_right ?_⟩
  rintro ⟨-, found, hfound, hallows⟩
  have hsame := (hallows expected hexpected).resolve_left hne
  exact hother credentials hn ((htruth credentials found hn hfound).symm.trans hsame.symm)

end Session

/-- A server may leave out the name of an organization. -/
theorem spelled?_organization (id : String) :
    spelled? Organization.ofJson? (Client.payload (.record [("id", .text id)])) =
      some ⟨id, ""⟩ := by
  have hread : Json.parse? (Json.pretty (.record [("id", .text id)])) =
      some (.record [("id", .text id)]) :=
    Json.parse?_pretty (.record (by simp [Json.WellSpelled.text]))
  simp [spelled?, Client.payload, hread, Organization.ofJson?, Json.members?_record, Json.required]

section Elsewhere

private def guarded : ClientConfig :=
  ⟨" api.example.com/ ", some "tok", none, none, some "org-2", none⟩

private def named : Reply :=
  .response ⟨200, Client.payload (.record [("id", .text "org-1")])⟩

private def elsewhere : Session where
  stage := .of (Client.afterLookup guarded "https://api.example.com" (.token "tok") named)
  sent := [Client.lookup "https://api.example.com" (.token "tok")]
  reply? := some named

end Elsewhere
end Reconciler
