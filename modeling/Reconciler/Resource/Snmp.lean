import Reconciler.Resource.Schema

/-! The SNMP agent of a node. On the wire the v3 credentials form a section of their own, which
needs a user name; declared keys are flat. -/
namespace Reconciler

structure TrapTarget where
  host : String
  port : UInt16
  community : String
deriving DecidableEq

namespace TrapTarget

def read (r : Reading) : Except TypeMismatch TrapTarget := do
  return ⟨← r.get String "host", ← r.get UInt16 "port", ← r.get String "community"⟩

def toBlock (t : TrapTarget) : Block :=
  .ofList [("host", toValue t.host), ("port", toValue t.port), ("community", toValue t.community)]

def encode (t : TrapTarget) : Json :=
  .record [("host", .text t.host), ("port", .int t.port.toNat), ("community", .text t.community)]

def decode? (j : Json) : Option TrapTarget := do
  let ms ← j.members? ["host", "port", "community"]
  return {
    host := ← Json.optional ms "host" Json.toText? ""
    port := ← Json.optional ms "port" Json.toUInt16? 0
    community := ← Json.optional ms "community" Json.toText? "" }

end TrapTarget

structure Snmp where
  nodeId : String
  enabled : Bool
  version : String
  community : String
  location : String
  contact : String
  username : String
  authProtocol : String
  authPassphrase : String
  privProtocol : String
  privPassphrase : String
  trapTargets : List TrapTarget
deriving DecidableEq

structure SnmpUser where
  username : String
  authProtocol : String
  authPassphrase : String
  privProtocol : String
  privPassphrase : String
deriving DecidableEq

structure SnmpDocument where
  enabled : Bool
  version : String
  community : String
  location : String
  contact : String
  v3 : Option SnmpUser
  traps : List TrapTarget
deriving DecidableEq

namespace SnmpUser

def blank : SnmpUser := ⟨"", "", "", "", ""⟩

def encode (u : SnmpUser) : Json :=
  .record [("username", .text u.username), ("authProtocol", .text u.authProtocol),
    ("authPassphrase", .text u.authPassphrase), ("privProtocol", .text u.privProtocol),
    ("privPassphrase", .text u.privPassphrase)]

def decode? (j : Json) : Option SnmpUser := do
  let ms ← j.members?
    ["username", "authProtocol", "authPassphrase", "privProtocol", "privPassphrase"]
  return {
    username := ← Json.optional ms "username" Json.toText? ""
    authProtocol := ← Json.optional ms "authProtocol" Json.toText? ""
    authPassphrase := ← Json.optional ms "authPassphrase" Json.toText? ""
    privProtocol := ← Json.optional ms "privProtocol" Json.toText? ""
    privPassphrase := ← Json.optional ms "privPassphrase" Json.toText? "" }

end SnmpUser

namespace Snmp

def materialize (s : DeclaredState) : Except TypeMismatch Snmp := do
  let r := Reading.ofState s
  return {
    nodeId := ← r.get String "node_id"
    enabled := ← r.get Bool "enabled"
    version := ← r.get String "version"
    community := ← r.get String "community"
    location := ← r.get String "location"
    contact := ← r.get String "contact"
    username := ← r.get String "username"
    authProtocol := ← r.get String "auth_protocol"
    authPassphrase := ← r.get String "auth_passphrase"
    privProtocol := ← r.get String "priv_protocol"
    privPassphrase := ← r.get String "priv_passphrase"
    trapTargets := ← r.blocks "trap_target" TrapTarget.read }

def project (r : Snmp) (s : DeclaredState) : DeclaredState :=
  s.set "node_id" (toValue r.nodeId)
    |>.set "enabled" (toValue r.enabled)
    |>.set "version" (toValue r.version)
    |>.set "community" (toValue r.community)
    |>.set "location" (toValue r.location)
    |>.set "contact" (toValue r.contact)
    |>.set "username" (toValue r.username)
    |>.set "auth_protocol" (toValue r.authProtocol)
    |>.set "auth_passphrase" (toValue r.authPassphrase)
    |>.set "priv_protocol" (toValue r.privProtocol)
    |>.set "priv_passphrase" (toValue r.privPassphrase)
    |>.set "trap_target" (toValue (r.trapTargets.map TrapTarget.toBlock))

/-- Passphrases travel in the v3 section only, so they need a user name. -/
def missing? (r : Snmp) : Option String :=
  if (r.authPassphrase ≠ "" ∨ r.privPassphrase ≠ "") ∧ r.username = "" then some "username"
  else none

def toDocument (r : Snmp) : SnmpDocument where
  enabled := r.enabled
  version := r.version
  community := r.community
  location := r.location
  contact := r.contact
  v3 :=
    if r.username = "" then none
    else some ⟨r.username, r.authProtocol, r.authPassphrase, r.privProtocol, r.privPassphrase⟩
  traps := r.trapTargets

def ofDocument (key : String) (d : SnmpDocument) : Snmp :=
  let user := d.v3.getD .blank
  ⟨key, d.enabled, d.version, d.community, d.location, d.contact, user.username,
    user.authProtocol, user.authPassphrase, user.privProtocol, user.privPassphrase, d.traps⟩

end Snmp

namespace SnmpDocument

def defaults : SnmpDocument := ⟨false, "", "", "", "", none, []⟩

def encode (d : SnmpDocument) : Json :=
  .record ([("enabled", .bool d.enabled), ("version", .text d.version),
    ("community", .text d.community), ("location", .text d.location),
    ("contact", .text d.contact)] ++ (d.v3.map fun u => ("v3", u.encode)).toList ++
    [("traps", .array (d.traps.map TrapTarget.encode))])

def decode? (j : Json) : Option SnmpDocument := do
  let ms ← j.members? ["enabled", "version", "community", "location", "contact", "v3", "traps"]
  return {
    enabled := ← Json.optional ms "enabled" Json.toBool? false
    version := ← Json.optional ms "version" Json.toText? ""
    community := ← Json.optional ms "community" Json.toText? ""
    location := ← Json.optional ms "location" Json.toText? ""
    contact := ← Json.optional ms "contact" Json.toText? ""
    v3 := ← Json.optional ms "v3" (Json.toOption? SnmpUser.decode?) none
    traps := ← Json.optional ms "traps" (Json.toList? TrapTarget.decode?) [] }

end SnmpDocument

def Snmp.schema : Schema where
  Record := Snmp
  Document := SnmpDocument
  materialize := Snmp.materialize
  project := Snmp.project
  naturalKey := Snmp.nodeId
  missing? := Snmp.missing?
  toDocument := Snmp.toDocument
  ofDocument := Snmp.ofDocument
  defaults := SnmpDocument.defaults
  encode := SnmpDocument.encode
  decode? := SnmpDocument.decode?

end Reconciler
