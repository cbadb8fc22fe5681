import Reconciler.Resource.Schema

/-! The license of a node. Its key is only ever written; all else about it the server says. -/
namespace Reconciler

structure License where
  nodeId : String
  licenseKey : String
  product : String
  seats : UInt32
  expiresAt : String
deriving DecidableEq

structure LicenseDocument where
  key : String
  product : String
  seats : UInt32
  expiresAt : String
deriving DecidableEq

namespace License

def materialize (s : DeclaredState) : Except TypeMismatch License := do
  let r := Reading.ofState s
  return {
    nodeId := ← r.get String "node_id"
    licenseKey := ← r.get String "license_key"
    product := ← r.get String "product"
    seats := ← r.get UInt32 "seats"
    expiresAt := ← r.get String "expires_at" }

def project (r : License) (s : DeclaredState) : DeclaredState :=
  s.set "node_id" (toValue r.nodeId)
    |>.set "license_key" (toValue r.licenseKey)
    |>.set "product" (toValue r.product)
    |>.set "seats" (toValue r.seats)
    |>.set "expires_at" (toValue r.expiresAt)

def toDocument (r : License) : LicenseDocument := ⟨r.licenseKey, "", 0, ""⟩

def ofDocument (key : String) (d : LicenseDocument) : License :=
  ⟨key, d.key, d.product, d.seats, d.expiresAt⟩

end License

namespace LicenseDocument

def defaults : LicenseDocument := ⟨"", "", 0, ""⟩

def encode (d : LicenseDocument) : Json :=
  .record ([("key", .text d.key)] ++ unlessEmpty "product" d.product ++
    (if d.seats = 0 then [] else [("seats", .int d.seats.toNat)]) ++
    unlessEmpty "expiresAt" d.expiresAt)

def decode? (j : Json) : Option LicenseDocument := do
  let ms ← j.members? ["key", "product", "seats", "expiresAt"]
  return {
    key := ← Json.optional ms "key" Json.toText? ""
    product := ← Json.optional ms "product" Json.toText? ""
    seats := ← Json.optional ms "seats" Json.toUInt32? 0
    expiresAt := ← Json.optional ms "expiresAt" Json.toText? "" }

end LicenseDocument

def License.schema : Schema where
  Record := License
  Document := LicenseDocument
  materialize := License.materialize
  project := License.project
  naturalKey := License.nodeId
  missing? _ := none
  toDocument := License.toDocument
  ofDocument := License.ofDocument
  defaults := LicenseDocument.defaults
  encode := LicenseDocument.encode
  decode? := LicenseDocument.decode?

end Reconciler
