/-! What can go wrong in an exchange with the management API. -/
namespace Reconciler

inductive ApiError
  | notFound (path : String)
  | validation (path responseBody : String)
  | unexpectedStatus (path : String) (status : UInt16) (requestBody responseBody : String)
  | decoding (path reason : String)
  | encoding (path reason : String)
  | network (url reason : String)
  | configuration (reason : String)
  | organizationMismatch (expected actual : String)
deriving DecidableEq

inductive ErrorCategory
  | network
  | notFound
  | validation
  | remote
  | format
  | configuration
deriving DecidableEq

namespace ErrorCategory

def description : ErrorCategory → String
  | .network => "Network connectivity issue"
  | .notFound => "Resource not found"
  | .validation => "Payload rejected by the API"
  | .remote => "Unexpected API response"
  | .format => "Malformed request or response body"
  | .configuration => "Invalid client configuration"

def advice : ErrorCategory → String
  | .network => "Check the host address and your network connection"
  | .notFound => "Verify the node id, or re-create the resource"
  | .validation => "Fix the declared values reported in the response body"
  | .remote => "Inspect the status and response body for details"
  | .format => "The API may have changed shape; check client and server versions"
  | .configuration => "Check host, credentials and organization id"

end ErrorCategory

namespace ApiError

def message : ApiError → String
  | .notFound path => s!"not found: {path}"
  | .validation path body => s!"validation failed for {path}: {body}"
  | .unexpectedStatus path status _ body => s!"unexpected HTTP {status} from {path}: {body}"
  | .decoding path reason => s!"failed to decode response from {path}: {reason}"
  | .encoding path reason => s!"failed to encode request for {path}: {reason}"
  | .network url reason => s!"HTTP request to {url} failed: {reason}"
  | .configuration reason => s!"invalid client configuration: {reason}"
  | .organizationMismatch expected actual =>
    s!"organization mismatch: configured {expected}, credentials belong to {actual}"

def category : ApiError → ErrorCategory
  | .notFound _ => .notFound
  | .validation .. => .validation
  | .unexpectedStatus .. => .remote
  | .decoding .. | .encoding .. => .format
  | .network .. => .network
  | .configuration _ | .organizationMismatch .. => .configuration

def isNotFound : ApiError → Bool
  | .notFound _ => true
  | _ => false

def status? : ApiError → Option UInt16
  | .notFound _ => some 404
  | .validation .. => some 422
  | .unexpectedStatus _ status _ _ => some status
  | _ => none

end ApiError
end Reconciler
