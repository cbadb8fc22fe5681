import Reconciler.Api.Error
import Reconciler.Text.Printable

/-! How a client authenticates: by a session token, or by an API key and its secret. -/
namespace Reconciler

inductive Credentials
  | token (token : String)
  | apiKey (key secret : String)
deriving DecidableEq

/-- A setting counts only when it is there and not empty. -/
def present? (setting : Option String) : Option String := setting.filter (· ≠ "")

namespace Credentials

def resolve (token key secret : Option String) : Except ApiError Credentials :=
  match present? token, present? key, present? secret with
  | some t, _, _ => .ok (.token t)
  | none, some key, some secret => .ok (.apiKey key secret)
  | none, some _, none => .error (.configuration "api key given without api secret")
  | none, none, some _ => .error (.configuration "api secret given without api key")
  | none, none, none =>
    .error (.configuration "no credentials: set a session token or an api key and secret")

def authorization : Credentials → String
  | .token t => s!"Bearer {t}"
  | .apiKey key secret => s!"ApiKey {key}:{secret}"

def redacted : Credentials → String
  | .token _ => "Token(<redacted>)"
  | .apiKey key _ => s!"ApiKey \x7b key: {Text.quote key}, secret: \"<redacted>\" \x7d"

end Credentials
end Reconciler
