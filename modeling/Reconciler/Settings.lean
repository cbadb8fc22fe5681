import Reconciler.Api.Client
import Reconciler.Toml.Parser

/-! Connection settings: read from a TOML document, overridden by the environment. -/
namespace Reconciler

abbrev Environment := String → Option String

structure Settings where
  host : Option String
  apiKey : Option String
  apiSecret : Option String
  token : Option String
  organizationId : Option String
  timeoutSecs : Option UInt64
deriving DecidableEq

namespace Settings

def empty : Settings := ⟨none, none, none, none, none, none⟩

def text? (entries : Toml.Entries) (key : String) : Option (Option String) :=
  match entries.lookup key with
  | none => some none
  | some (.string s) => some (some s)
  | some _ => none

def count? (entries : Toml.Entries) (key : String) : Option (Option UInt64) :=
  match entries.lookup key with
  | none => some none
  | some (.integer i) =>
    if 0 ≤ i ∧ i < UInt64.size then some (some (.ofNat i.toNat)) else none
  | some _ => none

def ofToml? (entries : Toml.Entries) : Option Settings := do
  return {
    host := ← text? entries "host"
    apiKey := ← text? entries "api_key"
    apiSecret := ← text? entries "api_secret"
    token := ← text? entries "token"
    organizationId := ← text? entries "organization_id"
    timeoutSecs := ← count? entries "timeout_secs" }

def parse? (s : String) : Option Settings := Toml.parse? s >>= ofToml?

/-- Variables that are set and not empty take the place of settings. -/
def override (env : Environment) (s : Settings) : Settings :=
  let pick (name : String) (setting : Option String) : Option String :=
    present? (env name) <|> setting
  { s with
    host := pick "NODECFG_HOST" s.host
    apiKey := pick "NODECFG_API_KEY" s.apiKey
    apiSecret := pick "NODECFG_API_SECRET" s.apiSecret
    token := pick "NODECFG_TOKEN" s.token
    organizationId := pick "NODECFG_ORGANIZATION_ID" s.organizationId }

def hostMissing : String :=
  "No API host configured (set `host` in the config file or NODECFG_HOST)"

/-- The settings of a client. Whichever of key and secret is missing beside the other is empty. -/
def clientConfig (s : Settings) : Except String ClientConfig :=
  match present? s.host with
  | none => .error hostMissing
  | some host =>
    let hasKey := s.apiKey.isSome || s.apiSecret.isSome
    .ok {
      host := host
      token := s.token
      apiKey := if hasKey then some (s.apiKey.getD "") else none
      apiSecret := if hasKey then some (s.apiSecret.getD "") else none
      organizationId := s.organizationId
      timeoutSecs := s.timeoutSecs }

end Settings
end Reconciler
