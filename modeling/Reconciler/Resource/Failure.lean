import Reconciler.Api.Error
import Reconciler.Declared.Reading
import Reconciler.Resource.Kind

/-! Why a lifecycle operation fails. -/
namespace Reconciler

inductive Failure
  | api (error : ApiError)
  | mapping (error : TypeMismatch)
  | unknownKind (tag : String)
  | invalidIdentity (kind : Kind) (id : String)
  | missingKey (kind : Kind) (field : String)
  | invalidKey (kind : Kind) (field key : String)
deriving DecidableEq

inductive FailureKind
  | notFound
  | validation
  | transport
  | decoding
  | typeMismatch
  | network
  | configuration
deriving DecidableEq

namespace Failure

def message : Failure → String
  | .api e => e.message
  | .mapping e => e.message
  | .unknownKind tag => s!"unknown resource kind: {tag}"
  | .invalidIdentity kind id => s!"invalid identity '{id}' for {kind.tag}"
  | .missingKey kind field => s!"{kind.tag} requires '{field}' to be set"
  | .invalidKey kind field key =>
    s!"{kind.tag} '{field}' must be a single URL path segment, got '{key}'"

def kind : Failure → FailureKind
  | .api (.notFound _) => .notFound
  | .api (.validation ..) => .validation
  | .api (.unexpectedStatus ..) => .transport
  | .api (.decoding ..) | .api (.encoding ..) => .decoding
  | .api (.network ..) => .network
  | .api (.configuration _) | .api (.organizationMismatch ..) => .configuration
  | .mapping _ => .typeMismatch
  | .unknownKind _ | .invalidIdentity .. | .missingKey .. | .invalidKey .. => .configuration

def isNotFound (e : Failure) : Bool := e.kind = .notFound

end Failure
end Reconciler
