import Reconciler.Resource.Schema

/-! CPU limits of a node. The document holds them as one section, which the defaults omit. -/
namespace Reconciler

structure CpuLimits where
  nodeId : String
  maxPercent : UInt32
  shares : UInt32
  pinnedCores : List UInt32
deriving DecidableEq

structure CpuSection where
  maxPercent : UInt32
  shares : UInt32
  pinnedCores : List UInt32
deriving DecidableEq

structure CpuDocument where
  cpu : Option CpuSection
deriving DecidableEq

namespace CpuSection

def blank : CpuSection := ⟨0, 0, []⟩

def encode (d : CpuSection) : Json :=
  .record [("maxPercent", .int d.maxPercent.toNat), ("shares", .int d.shares.toNat),
    ("pinnedCores", .array (d.pinnedCores.map fun n => .int n.toNat))]

def decode? (j : Json) : Option CpuSection := do
  let ms ← j.members? ["maxPercent", "shares", "pinnedCores"]
  return {
    maxPercent := ← Json.optional ms "maxPercent" Json.toUInt32? 0
    shares := ← Json.optional ms "shares" Json.toUInt32? 0
    pinnedCores := ← Json.optional ms "pinnedCores" (Json.toList? Json.toUInt32?) [] }

end CpuSection

namespace CpuLimits

def materialize (s : DeclaredState) : Except TypeMismatch CpuLimits := do
  let r := Reading.ofState s
  return {
    nodeId := ← r.get String "node_id"
    maxPercent := ← r.get UInt32 "max_percent"
    shares := ← r.get UInt32 "shares"
    pinnedCores := ← r.get (List UInt32) "pinned_cores" }

def project (r : CpuLimits) (s : DeclaredState) : DeclaredState :=
  s.set "node_id" (toValue r.nodeId)
    |>.set "max_percent" (toValue r.maxPercent)
    |>.set "shares" (toValue r.shares)
    |>.set "pinned_cores" (toValue r.pinnedCores)

def toDocument (r : CpuLimits) : CpuDocument := ⟨some ⟨r.maxPercent, r.shares, r.pinnedCores⟩⟩

def ofDocument (key : String) (d : CpuDocument) : CpuLimits :=
  let cpu := d.cpu.getD .blank
  ⟨key, cpu.maxPercent, cpu.shares, cpu.pinnedCores⟩

end CpuLimits

namespace CpuDocument

def defaults : CpuDocument := ⟨none⟩

def encode (d : CpuDocument) : Json := .record (d.cpu.map fun s => ("cpu", s.encode)).toList

def decode? (j : Json) : Option CpuDocument := do
  let ms ← j.members? ["cpu"]
  return ⟨← Json.optional ms "cpu" (Json.toOption? CpuSection.decode?) none⟩

end CpuDocument

def CpuLimits.schema : Schema where
  Record := CpuLimits
  Document := CpuDocument
  materialize := CpuLimits.materialize
  project := CpuLimits.project
  naturalKey := CpuLimits.nodeId
  missing? _ := none
  toDocument := CpuLimits.toDocument
  ofDocument := CpuLimits.ofDocument
  defaults := CpuDocument.defaults
  encode := CpuDocument.encode
  decode? := CpuDocument.decode?

end Reconciler
