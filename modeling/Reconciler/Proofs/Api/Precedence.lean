import Reconciler.Proofs.Api.Connecting
import Reconciler.Settings

/-! Where the settings of a client come from. A variable that is not empty takes the place of what
the file says, and what is empty counts as missing, whether it is a variable, an entry of the file
or what the one of key and secret is given beside the other. -/
namespace Reconciler

@[simp] theorem present?_orElse (first second : Option String) :
    present? (present? first <|> second) = (present? first <|> present? second) := by
  cases h : present? first with
  | none => rfl
  | some x =>
    obtain ⟨-, hne⟩ := present?_eq_some_iff.1 h
    exact present?_eq_some_iff.2 ⟨rfl, hne⟩

namespace Settings

/-- The settings that count: those of the environment that are not empty, and for the others those
of the file that are not empty. -/
def effective (env : Environment) (s : Settings) : Settings :=
  let value (name : String) (setting : Option String) : Option String :=
    present? (env name) <|> present? setting
  { s with
    host := value "NODECFG_HOST" s.host
    apiKey := value "NODECFG_API_KEY" s.apiKey
    apiSecret := value "NODECFG_API_SECRET" s.apiSecret
    token := value "NODECFG_TOKEN" s.token
    organizationId := value "NODECFG_ORGANIZATION_ID" s.organizationId }

/-- There is no host, or nothing is left of it without blanks around it and slashes behind it. -/
def Hostless (e : Settings) : Prop :=
  e.host = none ∨ ∃ host, e.host = some host ∧
    Text.dropEndWhile (· == '/') (Text.trim host.toList) = []

def Anonymous (e : Settings) : Prop := e.token = none ∧ (e.apiKey = none ∨ e.apiSecret = none)

/-- A request goes out under the token, and without a token under the key and its secret. -/
structure Authorizes (e : Settings) (request : Request) : Prop where
  token : ∀ token, e.token = some token →
    request.header? "Authorization" = some ("Bearer " ++ token)
  apiKey : ∀ key secret, e.token = none → e.apiKey = some key → e.apiSecret = some secret →
    request.header? "Authorization" = some ("ApiKey " ++ key ++ ":" ++ secret)

inductive Refused (s : Settings) : Prop
  | settings {reason : String} (h : s.clientConfig = .error reason)
  | connecting {config : ClientConfig} {e : ApiError} (h : s.clientConfig = .ok config)
    (hconnect : Client.connect config = .settled (.error e))

end Settings

def Reply.Finds (reply : Reply) (found : Organization) : Prop :=
  ∃ body, reply = .response ⟨200, body⟩ ∧ spelled? Organization.ofJson? body = some found

/-- The organization that is found is held against that of the settings just if they have one. -/
structure Settings.Checks (e : Settings) (receive : Reply → Except ApiError Client) : Prop where
  accepted : ∀ reply found, (∃ c, receive reply = .ok c ∧ c.organization = found) ↔
    reply.Finds found ∧ (e.organizationId = none ∨ e.organizationId = some found.id)
  mismatched : ∀ reply expected actual,
    receive reply = .error (.organizationMismatch expected actual) ↔
      ∃ found, reply.Finds found ∧ e.organizationId = some expected ∧ expected ≠ found.id ∧
        found.id = actual

theorem Client.accept_eq_mismatch_iff {config : ClientConfig} {c : Client} {found : Organization}
    {expected actual : String} :
    accept config c found = .error (.organizationMismatch expected actual) ↔
      present? config.organizationId = some expected ∧ expected ≠ found.id ∧
        found.id = actual := by
  unfold accept
  cases present? config.organizationId with
  | none => simp
  | some configured =>
    by_cases hsame : configured = found.id
    · simp +contextual [hsame]
    · simp only [if_neg hsame, Except.error.injEq, ApiError.organizationMismatch.injEq,
        Option.some.injEq]
      refine and_congr_right fun hconfigured => (and_iff_right ?_).symm
      rwa [← hconfigured]

namespace ClientConfig
variable {config : ClientConfig} {e : Settings} {credentials : Credentials}

/-- A configuration in which just those settings are present that count. -/
structure Carries (config : ClientConfig) (e : Settings) : Prop where
  host : e.host = some config.host
  token : present? config.token = e.token
  apiKey : present? config.apiKey = e.apiKey
  apiSecret : present? config.apiSecret = e.apiSecret
  organizationId : present? config.organizationId = e.organizationId

theorem names_token {token : String} (h : present? config.token = some token) :
    config.Names (.token token) := by
  obtain ⟨ht, hne⟩ := present?_eq_some_iff.1 h
  exact .token ht hne

theorem names_apiKey {key secret : String} (hnone : present? config.token = none)
    (hkey : present? config.apiKey = some key) (hsecret : present? config.apiSecret = some secret) :
    config.Names (.apiKey key secret) := by
  obtain ⟨hkey, hkey'⟩ := present?_eq_some_iff.1 hkey
  obtain ⟨hsecret, hsecret'⟩ := present?_eq_some_iff.1 hsecret
  exact .apiKey (present?_eq_none_iff.1 hnone) hkey hkey' hsecret hsecret'

/-- Credentials are a token, or a key with its secret. -/
theorem exists_names_iff : (∃ credentials, config.Names credentials) ↔
    present? config.token ≠ none ∨
      present? config.apiKey ≠ none ∧ present? config.apiSecret ≠ none := by
  simp only [Option.ne_none_iff_exists']
  constructor
  · rintro ⟨_, ⟨ht, hne⟩ | ⟨-, hkey, hkey', hsecret, hsecret'⟩⟩
    · exact .inl ⟨_, present?_eq_some_iff.2 ⟨ht, hne⟩⟩
    · exact .inr ⟨⟨_, present?_eq_some_iff.2 ⟨hkey, hkey'⟩⟩,
        _, present?_eq_some_iff.2 ⟨hsecret, hsecret'⟩⟩
  · cases ht : present? config.token with
    | some token => exact fun _ => ⟨_, names_token ht⟩
    | none =>
      rintro (⟨_, ⟨⟩⟩ | ⟨⟨key, hkey⟩, secret, hsecret⟩)
      exact ⟨_, names_apiKey ht hkey hsecret⟩

namespace Carries
variable (hc : config.Carries e)
include hc

theorem hostless_iff : e.Hostless ↔ config.bareHost = [] := by
  unfold Settings.Hostless bareHost
  simp [hc.host]

theorem anonymous_iff : e.Anonymous ↔ ¬∃ credentials, config.Names credentials := by
  unfold Settings.Anonymous
  rw [exists_names_iff, hc.token, hc.apiKey, hc.apiSecret, not_or, not_and_or, not_not, not_not,
    not_not]

/-- Whatever credentials a configuration has, they are those of the settings that count. -/
theorem authorizes (h : config.Names credentials) {request : Request}
    (hrequest : request.header? "Authorization" = some credentials.authorization) :
    e.Authorizes request where
  token := by
    intro token ht
    rw [hrequest, h.eq (names_token (hc.token.trans ht))]
    rfl
  apiKey := by
    intro key secret ht hkey hsecret
    rw [hrequest, h.eq (names_apiKey (hc.token.trans ht) (hc.apiKey.trans hkey)
      (hc.apiSecret.trans hsecret))]
    rfl

theorem allows_iff {found : Organization} :
    config.Allows found ↔ e.organizationId = none ∨ e.organizationId = some found.id := by
  rw [← hc.organizationId]
  unfold Allows
  cases hid : present? config.organizationId with
  | none =>
    have hempty := present?_eq_none_iff.1 hid
    exact iff_of_true (fun expected hexpected => .inl (hempty expected hexpected)) (.inl rfl)
  | some expected =>
    obtain ⟨hexpected, hne⟩ := present?_eq_some_iff.1 hid
    simp [hexpected, hne]

theorem checks (base : String) (credentials : Credentials) :
    e.Checks (Client.afterLookup config base credentials) where
  accepted := by
    intro reply found
    rw [← hc.allows_iff]
    simp only [Client.afterLookup_eq_ok_iff]
    constructor
    · rintro ⟨_, ⟨body, _, hreply, hspelled, hallows, rfl⟩, rfl⟩
      exact ⟨⟨body, hreply, hspelled⟩, hallows⟩
    · rintro ⟨⟨body, hreply, hspelled⟩, hallows⟩
      exact ⟨_, ⟨body, found, hreply, hspelled, hallows, rfl⟩, rfl⟩
  mismatched := by
    intro reply expected actual
    rw [← hc.organizationId]
    rcases Client.afterLookup_cases config base credentials reply with
      ⟨body, found, rfl, hspelled, hafter⟩ | ⟨hnone, e, hafter, hother⟩
    · rw [hafter, Client.accept_eq_mismatch_iff]
      constructor
      · exact fun hmismatch => ⟨found, ⟨body, rfl, hspelled⟩, hmismatch⟩
      · rintro ⟨other, ⟨_, ⟨rfl⟩, hother⟩, hmismatch⟩
        cases hspelled.symm.trans hother
        exact hmismatch
    · rw [hafter]
      refine iff_of_false (fun h => hother _ _ (Except.error.inj h)) ?_
      rintro ⟨found, ⟨body, hreply, hspelled⟩, -⟩
      exact hnone body found hreply hspelled

end Carries
end ClientConfig

namespace Settings
variable {env : Environment} {s : Settings}

/-- A client configuration needs a host, and takes over all other settings that count. -/
theorem clientConfig_cases (s : Settings) :
    present? s.host = none ∧ s.clientConfig = .error hostMissing ∨
    ∃ config, s.clientConfig = .ok config ∧ present? s.host = some config.host ∧
      config.token = s.token ∧ present? config.apiKey = present? s.apiKey ∧
      present? config.apiSecret = present? s.apiSecret ∧
      config.organizationId = s.organizationId := by
  unfold clientConfig
  cases hhost : present? s.host with
  | none => exact .inl ⟨rfl, rfl⟩
  | some host =>
    refine .inr ⟨_, rfl, rfl, rfl, ?_, ?_, rfl⟩
    · cases s.apiKey <;> cases s.apiSecret <;> rfl
    · cases s.apiKey <;> cases s.apiSecret <;> rfl

/-- Overriding and what a configuration leaves out agree on what is missing. -/
theorem override_cases (env : Environment) (s : Settings) :
    (s.effective env).host = none ∧ (s.override env).clientConfig = .error hostMissing ∨
    ∃ config, (s.override env).clientConfig = .ok config ∧ config.Carries (s.effective env) := by
  rcases (s.override env).clientConfig_cases with
    ⟨hhost, h⟩ | ⟨config, h, hhost, htoken, hkey, hsecret, horg⟩
  · exact .inl ⟨(present?_orElse ..).symm.trans hhost, h⟩
  · refine .inr ⟨config, h, ?_, ?_, ?_, ?_, ?_⟩
    · exact (present?_orElse ..).symm.trans hhost
    · exact (congrArg present? htoken).trans (present?_orElse ..)
    · exact hkey.trans (present?_orElse ..)
    · exact hsecret.trans (present?_orElse ..)
    · exact (congrArg present? horg).trans (present?_orElse ..)

/-- Settings are refused just if they lack a host or credentials. -/
theorem refused_iff : (s.override env).Refused ↔
    (s.effective env).Hostless ∨ (s.effective env).Anonymous := by
  rcases override_cases env s with ⟨hhost, h⟩ | ⟨config, h, hc⟩
  · exact iff_of_true (.settings h) (.inl (.inl hhost))
  · rw [hc.hostless_iff, hc.anonymous_iff]
    rcases Client.connect_cases config with ⟨e, he, hconnect⟩ | ⟨_, -, hhost, hconnect⟩ |
      ⟨credentials, base, hn, hhost, -, hconnect⟩
    · refine iff_of_true (.connecting h hconnect) (.inr ?_)
      rintro ⟨credentials, hn⟩
      rw [ClientConfig.resolve_eq_ok_iff.2 hn] at he
      cases he
    · exact iff_of_true (.connecting h hconnect) (.inl hhost)
    · refine iff_of_false ?_ (not_or.2 ⟨hhost, not_not.2 ⟨credentials, hn⟩⟩)
      rintro (hreason | ⟨hother, hsettled⟩)
      · cases h.symm.trans hreason
      · cases h.symm.trans hother
        cases hconnect.symm.trans hsettled

/-- Connecting from a file and an environment fails before anything is sent just when the settings
that count name no host or no credentials. Otherwise they decide under which credentials all
requests go out, and whether and against which organization the one that is found is checked. -/
theorem connect_precedence (env : Environment) (s : Settings) :
    ((s.override env).Refused ↔ (s.effective env).Hostless ∨ (s.effective env).Anonymous) ∧
    (¬(s.override env).Refused → ∃ config request receive,
      (s.override env).clientConfig = .ok config ∧
      Client.connect config = .exchange request receive ∧
      (∀ session, Session.Reached config session →
        ∀ request ∈ session.sent, (s.effective env).Authorizes request) ∧
      (s.effective env).Checks receive) := by
  refine ⟨refused_iff, fun hrefused => ?_⟩
  rcases override_cases env s with ⟨-, h⟩ | ⟨config, h, hc⟩
  · exact absurd (.settings h) hrefused
  · rcases Client.connect_cases config with ⟨_, -, hconnect⟩ | ⟨_, -, -, hconnect⟩ |
      ⟨credentials, base, -, -, -, hconnect⟩
    · exact absurd (.connecting h hconnect) hrefused
    · exact absurd (.connecting h hconnect) hrefused
    · refine ⟨config, _, _, h, hconnect, fun session hsession request hrequest => ?_,
        hc.checks base credentials⟩
      obtain ⟨credentials, base, hn, -, hcases⟩ := hsession.verified request hrequest
      refine hc.authorizes hn ?_
      rcases hcases with rfl | ⟨hheader, -⟩
      · exact (Client.unverified base credentials).header?_authorization .get organizationPath none
      · exact hheader

private def filed : Settings :=
  ⟨some "old.example.com", none, some "s3cret", some "", some "org-1", none⟩

private def surrounding : Environment
  | "NODECFG_HOST" => some "api.example.com/"
  | "NODECFG_API_KEY" => some "key"
  | "NODECFG_ORGANIZATION_ID" => some ""
  | _ => none

private def answer (id : String) : Reply :=
  .response ⟨200, Client.payload (.record [("id", .text id)])⟩

/-- Key and secret come from two places, and empty variables and entries are passed over. -/
theorem connect_precedence_mixed : ¬(filed.override surrounding).Refused ∧
    ∃ config request receive, (filed.override surrounding).clientConfig = .ok config ∧
      Client.connect config = .exchange request receive ∧
      request.header? "Authorization" = some "ApiKey key:s3cret" ∧
      (∃ c, receive (answer "org-1") = .ok c ∧ c.organization = ⟨"org-1", ""⟩) ∧
      receive (answer "org-2") = .error (.organizationMismatch "org-1" "org-2") := by
  obtain ⟨hrefused, hconnect⟩ := connect_precedence surrounding filed
  have hnot : ¬(filed.override surrounding).Refused := by
    rw [hrefused]
    rintro ((⟨⟨⟩⟩ | ⟨host, hhost, hbare⟩) | ⟨-, ⟨⟨⟩⟩ | ⟨⟨⟩⟩⟩)
    cases hhost
    exact absurd hbare (by decide)
  obtain ⟨config, request, receive, h, hc, hsessions, hchecks⟩ := hconnect hnot
  have hfinds : ∀ id, (answer id).Finds ⟨id, ""⟩ := fun id => ⟨_, rfl, spelled?_organization id⟩
  refine ⟨hnot, config, request, receive, h, hc, ?_, ?_, ?_⟩
  · have hreached : Session.Reached config ⟨.asking receive, [request], none⟩ := .single (.ask hc)
    have hkey := hsessions _ hreached request (List.mem_singleton.2 rfl)
    exact hkey.apiKey "key" "s3cret" rfl rfl rfl
  · exact (hchecks.accepted _ _).2 ⟨hfinds "org-1", .inr rfl⟩
  · exact (hchecks.mismatched _ _ _).2 ⟨_, hfinds "org-2", rfl, by decide, rfl⟩

end Settings
end Reconciler
