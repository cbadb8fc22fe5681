import Reconciler.Api.Call
import Reconciler.Api.Credentials
import Reconciler.Json.Parser
import Reconciler.Json.Printer
import Reconciler.Json.Reader
import Reconciler.Text.Classes

/-! The authenticated client of the management API. -/
namespace Reconciler

structure ClientConfig where
  host : String
  token : Option String
  apiKey : Option String
  apiSecret : Option String
  organizationId : Option String
  timeoutSecs : Option UInt64
deriving DecidableEq

def containsScheme : List Char → Bool
  | ':' :: '/' :: '/' :: _ => true
  | _ :: r => containsScheme r
  | [] => false

/-- The URL that paths are joined to: the host without blanks around it and slashes behind it,
under `https` unless it names a scheme itself. -/
def ClientConfig.baseUrl (config : ClientConfig) : Except ApiError String :=
  let host := Text.dropEndWhile (· == '/') (Text.trim config.host.toList)
  if host.isEmpty then .error (.configuration "host is required")
  else if containsScheme host then .ok (.ofList host)
  else .ok ("https://" ++ .ofList host)

structure Organization where
  id : String
  name : String
deriving DecidableEq

def Organization.ofJson? (j : Json) : Option Organization := do
  let members ← j.members? ["id", "name"]
  return ⟨← Json.required members "id" Json.toText?,
    ← Json.optional members "name" Json.toText? ""⟩

def organizationPath : String := "/v2/organization"

structure Client where
  baseUrl : String
  credentials : Credentials
  organization : Organization
deriving DecidableEq

def classify (path requestBody : String) (response : Response) : Except ApiError Response :=
  if response.status = 200 then .ok response
  else if response.status = 404 then .error (.notFound path)
  else if response.status = 422 then .error (.validation path response.bodyText)
  else .error (.unexpectedStatus path response.status requestBody response.bodyText)

/-- The body of a response at a type. It need not be well-formed UTF-8 in strings that the type
ignores. -/
def decodeBody {α : Type} (path : String) (value : Json → Option α) (response : Response) :
    Except ApiError α :=
  match Json.parseBytes? response.body with
  | none => .error (.decoding path "not a JSON text")
  | some j =>
    match value j with
    | none => .error (.decoding path "not the expected JSON")
    | some x => .ok x

namespace Client

def request (c : Client) (method : Method) (path : String) (body : Option (List UInt8)) :
    Request where
  method := method
  url := c.baseUrl ++ path
  headers := [("Authorization", c.credentials.authorization), ("Accept", "application/json")] ++
    if body.isSome then [("Content-Type", "application/json")] else []
  body := body

def exchange (c : Client) (method : Method) (path : String) (body : Option (List UInt8)) :
    Call (Except ApiError Response) :=
  let request := c.request method path body
  .exchange request fun
    | .lost reason => .error (.network request.url reason)
    | .response response => classify path request.bodyText response

def payload (j : Json) : List UInt8 := Utf8.encode j.pretty

def get {α : Type} (c : Client) (path : String) (value : Json → Option α) :
    Call (Except ApiError α) :=
  (c.exchange .get path none).map fun r => r >>= decodeBody path value

def put (c : Client) (path : String) (j : Json) : Call (Except ApiError Unit) :=
  (c.exchange .put path (some (payload j))).map fun r => r.map fun _ => ()

def post {α : Type} (c : Client) (path : String) (j : Json) (value : Json → Option α) :
    Call (Except ApiError α) :=
  (c.exchange .post path (some (payload j))).map fun r => r >>= decodeBody path value

def delete (c : Client) (path : String) : Call (Except ApiError Unit) :=
  (c.exchange .delete path none).map fun r => r.map fun _ => ()

def deleteWith (c : Client) (path : String) (j : Json) : Call (Except ApiError Unit) :=
  (c.exchange .delete path (some (payload j))).map fun r => r.map fun _ => ()

def accept (config : ClientConfig) (c : Client) (found : Organization) : Except ApiError Client :=
  match present? config.organizationId with
  | some expected =>
    if expected = found.id then .ok { c with organization := found }
    else .error (.organizationMismatch expected found.id)
  | none => .ok { c with organization := found }

/-- Connecting looks up the organization that the credentials belong to. Credentials are checked
before the host, and both before anything is sent. -/
def connect (config : ClientConfig) : Call (Except ApiError Client) :=
  match Credentials.resolve config.token config.apiKey config.apiSecret with
  | .error e => .settled (.error e)
  | .ok credentials =>
    match config.baseUrl with
    | .error e => .settled (.error e)
    | .ok baseUrl =>
      let c : Client := ⟨baseUrl, credentials, ⟨"", ""⟩⟩
      (c.get organizationPath Organization.ofJson?).map fun r => r >>= accept config c

end Client
end Reconciler
