/-! The kinds of resources that the management API knows, and what identifies a resource: a natural
key, and with the tag of its kind in front an identity. -/
namespace Reconciler

/-- How a resource goes away: by a `DELETE` of its URL, or, where the API has none, by writing the
document that returns it to its defaults. -/
inductive DeletePolicy
  | remote
  | reset
deriving DecidableEq

def DeletePolicy.description : DeletePolicy → String
  | .remote => "remote delete"
  | .reset => "reset to defaults"

inductive Kind
  | node
  | snmp
  | cpuLimits
  | ioLimits
  | license
deriving DecidableEq

namespace Kind

def all : List Kind := [.node, .snmp, .cpuLimits, .ioLimits, .license]

def tag : Kind → String
  | .node => "node"
  | .snmp => "snmp"
  | .cpuLimits => "cpu_limits"
  | .ioLimits => "io_limits"
  | .license => "license"

def ofTag? (tag : String) : Option Kind := all.find? fun k => k.tag == tag

def naturalKey (_ : Kind) : String := "node_id"

def deletePolicy : Kind → DeletePolicy
  | .node | .license => .remote
  | .snmp | .cpuLimits | .ioLimits => .reset

/-- Declared keys whose values the API never returns. -/
def secretKeys : Kind → List String
  | .snmp => ["auth_passphrase", "priv_passphrase"]
  | .license => ["license_key"]
  | .node | .cpuLimits | .ioLimits => []

def path : Kind → String → String
  | .node, key => s!"/v2/node/{key}"
  | .snmp, key => s!"/node/{key}/config/snmp"
  | .cpuLimits, key => s!"/v2/node/{key}/exec/limit"
  | .ioLimits, key => s!"/v2/node/{key}/exec/io"
  | .license, key => s!"/v2/node/{key}/license"

end Kind

def identity (tag key : String) : String := tag ++ "_" ++ key

/-- The natural key in an identity of the kind `tag`. An empty key is none. -/
def parseIdentity? (tag id : String) : Option String :=
  match (tag ++ "_").toList.isPrefixOf? id.toList with
  | some (c :: rest) => some (.ofList (c :: rest))
  | _ => none

def isUnreserved (c : Char) : Bool :=
  c.isAlphanum || c == '-' || c == '_' || c == '.' || c == '~'

def isPathSegment (key : String) : Bool :=
  key != "." && key != ".." && key.toList.all isUnreserved

end Reconciler
