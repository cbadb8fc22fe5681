import Reconciler.Resource.Schema

/-! Disk throttling of a node, in bytes and operations per second. -/
namespace Reconciler

structure IoLimits where
  nodeId : String
  readBps : Int64
  writeBps : Int64
  readIops : UInt32
  writeIops : UInt32
deriving DecidableEq

structure IoSection where
  readBps : Int64
  writeBps : Int64
  readIops : UInt32
  writeIops : UInt32
deriving DecidableEq

structure IoDocument where
  io : Option IoSection
deriving DecidableEq

namespace IoSection

def blank : IoSection := ⟨0, 0, 0, 0⟩

def encode (d : IoSection) : Json :=
  .record [("readBps", .int d.readBps.toInt), ("writeBps", .int d.writeBps.toInt),
    ("readIops", .int d.readIops.toNat), ("writeIops", .int d.writeIops.toNat)]

def decode? (j : Json) : Option IoSection := do
  let ms ← j.members? ["readBps", "writeBps", "readIops", "writeIops"]
  return {
    readBps := ← Json.optional ms "readBps" Json.toInt64? 0
    writeBps := ← Json.optional ms "writeBps" Json.toInt64? 0
    readIops := ← Json.optional ms "readIops" Json.toUInt32? 0
    writeIops := ← Json.optional ms "writeIops" Json.toUInt32? 0 }

end IoSection

namespace IoLimits

def materialize (s : DeclaredState) : Except TypeMismatch IoLimits := do
  let r := Reading.ofState s
  return {
    nodeId := ← r.get String "node_id"
    readBps := ← r.get Int64 "read_bps"
    writeBps := ← r.get Int64 "write_bps"
    readIops := ← r.get UInt32 "read_iops"
    writeIops := ← r.get UInt32 "write_iops" }

def project (r : IoLimits) (s : DeclaredState) : DeclaredState :=
  s.set "node_id" (toValue r.nodeId)
    |>.set "read_bps" (toValue r.readBps)
    |>.set "write_bps" (toValue r.writeBps)
    |>.set "read_iops" (toValue r.readIops)
    |>.set "write_iops" (toValue r.writeIops)

def toDocument (r : IoLimits) : IoDocument :=
  ⟨some ⟨r.readBps, r.writeBps, r.readIops, r.writeIops⟩⟩

def ofDocument (key : String) (d : IoDocument) : IoLimits :=
  let io := d.io.getD .blank
  ⟨key, io.readBps, io.writeBps, io.readIops, io.writeIops⟩

end IoLimits

namespace IoDocument

def defaults : IoDocument := ⟨none⟩

def encode (d : IoDocument) : Json := .record (d.io.map fun s => ("io", s.encode)).toList

def decode? (j : Json) : Option IoDocument := do
  let ms ← j.members? ["io"]
  return ⟨← Json.optional ms "io" (Json.toOption? IoSection.decode?) none⟩

end IoDocument

def IoLimits.schema : Schema where
  Record := IoLimits
  Document := IoDocument
  materialize := IoLimits.materialize
  project := IoLimits.project
  naturalKey := IoLimits.nodeId
  missing? _ := none
  toDocument := IoLimits.toDocument
  ofDocument := IoLimits.ofDocument
  defaults := IoDocument.defaults
  encode := IoDocument.encode
  decode? := IoDocument.decode?

end Reconciler
