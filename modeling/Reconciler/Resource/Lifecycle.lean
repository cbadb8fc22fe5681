import Reconciler.Api.Client
import Reconciler.Outcome
import Reconciler.Resource.CpuLimits
import Reconciler.Resource.Failure
import Reconciler.Resource.IoLimits
import Reconciler.Resource.License
import Reconciler.Resource.Node
import Reconciler.Resource.Snmp

/-! The life of a resource: created, read, updated, deleted, imported. Each operation makes at
most one exchange and says how the declared state goes on, in failure too. -/
namespace Reconciler

def Kind.schema : Kind → Schema
  | .node => Node.schema
  | .snmp => Snmp.schema
  | .cpuLimits => CpuLimits.schema
  | .ioLimits => IoLimits.schema
  | .license => License.schema

abbrev Step (α : Type) := Except Failure α × DeclaredState

namespace Kind

/-- The record in a state, once its natural key is known to stand as a path segment. -/
def keyed (k : Kind) (s : DeclaredState) : Except Failure k.schema.Record :=
  match k.schema.materialize s with
  | .error e => .error (.mapping e)
  | .ok record =>
    let key := k.schema.naturalKey record
    if key = "" then .error (.missingKey k k.naturalKey)
    else if isPathSegment key then .ok record
    else .error (.invalidKey k k.naturalKey key)

def writable (k : Kind) (s : DeclaredState) : Except Failure k.schema.Record :=
  match k.keyed s with
  | .error e => .error e
  | .ok record =>
    match k.schema.missing? record with
    | some field => .error (.missingKey k field)
    | none => .ok record

def write (k : Kind) (c : Client) (outcome : ApplyResult) (s : DeclaredState) :
    Call (Step ApplyResult) :=
  match k.writable s with
  | .error e => .settled (.error e, s)
  | .ok record =>
    let key := k.schema.naturalKey record
    (c.put (k.path key) (k.schema.encode (k.schema.toDocument record))).map fun
      | .error e => (.error (.api e), s)
      | .ok () => (.ok outcome, s.setId (identity k.tag key))

def create (k : Kind) (c : Client) (s : DeclaredState) : Call (Step ApplyResult) :=
  k.write c .created s

def update (k : Kind) (c : Client) (s : DeclaredState) : Call (Step ApplyResult) :=
  k.write c .modified s

def secrets (k : Kind) (s : DeclaredState) : List (String × Value) :=
  k.secretKeys.filterMap fun key =>
    ((s.get? key).filter fun v => !v.isEmpty).map fun v => (key, v)

def restore (secrets : List (String × Value)) (s : DeclaredState) : DeclaredState :=
  secrets.foldl
    (fun s e => if ((s.get? e.1).map Value.isEmpty).getD true then s.set e.1 e.2 else s) s

/-- The state that a remote document brings about. Secrets the server does not return stay. -/
def refreshed (k : Kind) (key : String) (document : k.schema.Document) (s : DeclaredState) :
    DeclaredState :=
  (restore (k.secrets s) (k.schema.project (k.schema.ofDocument key document) s)).setId
    (identity k.tag key)

def read (k : Kind) (c : Client) (s : DeclaredState) : Call (Step Presence) :=
  match k.keyed s with
  | .error e => .settled (.error e, s)
  | .ok record =>
    let key := k.schema.naturalKey record
    (c.get (k.path key) k.schema.decode?).map fun
      | .ok document => (.ok .present, k.refreshed key document s)
      | .error e => if e.isNotFound then (.ok .absent, s.clearId) else (.error (.api e), s)

def delete (k : Kind) (c : Client) (s : DeclaredState) : Call (Step ApplyResult) :=
  match k.keyed s with
  | .error e => .settled (.error e, s)
  | .ok record =>
    let path := k.path (k.schema.naturalKey record)
    let sent := match k.deletePolicy with
      | .remote => c.delete path
      | .reset => c.put path (k.schema.encode k.schema.defaults)
    sent.map fun
      | .ok () => (.ok .removed, s.clearId)
      | .error e => if e.isNotFound then (.ok .noChange, s.clearId) else (.error (.api e), s)

/-- Adopt the remote resource with an identity. The state takes over the natural key before it is
read, and keeps it when the reading fails. -/
def adopt (k : Kind) (c : Client) (id : String) (s : DeclaredState) : Call (Step Presence) :=
  match parseIdentity? k.tag id with
  | none => .settled (.error (.invalidIdentity k id), s)
  | some key => k.read c (s.set k.naturalKey (.string key))

def find (tag : String) : Except Failure Kind :=
  match ofTag? tag with
  | some k => .ok k
  | none => .error (.unknownKind tag)

end Kind
end Reconciler
