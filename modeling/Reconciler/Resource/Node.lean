import Reconciler.Resource.Schema

/-! A managed node. Its status and public address are the server's and never sent. -/
namespace Reconciler

structure Node where
  nodeId : String
  name : String
  description : String
  tags : List String
  site : String
  status : String
  publicIp : String
deriving DecidableEq

structure NodeDocument where
  name : String
  description : String
  tags : List String
  site : String
  status : String
  publicIp : String
deriving DecidableEq

namespace Node

def materialize (s : DeclaredState) : Except TypeMismatch Node := do
  let r := Reading.ofState s
  return {
    nodeId := ← r.get String "node_id"
    name := ← r.get String "name"
    description := ← r.get String "description"
    tags := ← r.get (List String) "tags"
    site := ← r.get String "site"
    status := ← r.get String "status"
    publicIp := ← r.get String "public_ip" }

def project (r : Node) (s : DeclaredState) : DeclaredState :=
  s.set "node_id" (toValue r.nodeId)
    |>.set "name" (toValue r.name)
    |>.set "description" (toValue r.description)
    |>.set "tags" (toValue r.tags)
    |>.set "site" (toValue r.site)
    |>.set "status" (toValue r.status)
    |>.set "public_ip" (toValue r.publicIp)

def toDocument (r : Node) : NodeDocument := ⟨r.name, r.description, r.tags, r.site, "", ""⟩

def ofDocument (key : String) (d : NodeDocument) : Node :=
  ⟨key, d.name, d.description, d.tags, d.site, d.status, d.publicIp⟩

end Node

namespace NodeDocument

def defaults : NodeDocument := ⟨"", "", [], "", "", ""⟩

def encode (d : NodeDocument) : Json :=
  .record ([("name", .text d.name), ("description", .text d.description),
    ("tags", .array (d.tags.map .text)), ("siteName", .text d.site)] ++
    unlessEmpty "status" d.status ++ unlessEmpty "publicIP" d.publicIp)

def decode? (j : Json) : Option NodeDocument := do
  let ms ← j.members? ["name", "description", "tags", "siteName", "status", "publicIP"]
  return {
    name := ← Json.optional ms "name" Json.toText? ""
    description := ← Json.optional ms "description" Json.toText? ""
    tags := ← Json.optional ms "tags" (Json.toList? Json.toText?) []
    site := ← Json.optional ms "siteName" Json.toText? ""
    status := ← Json.optional ms "status" Json.toText? ""
    publicIp := ← Json.optional ms "publicIP" Json.toText? "" }

end NodeDocument

def Node.schema : Schema where
  Record := Node
  Document := NodeDocument
  materialize := Node.materialize
  project := Node.project
  naturalKey := Node.nodeId
  missing? _ := none
  toDocument := Node.toDocument
  ofDocument := Node.ofDocument
  defaults := NodeDocument.defaults
  encode := NodeDocument.encode
  decode? := NodeDocument.decode?

end Reconciler
