import Reconciler.Proofs.Declared.Field
import Reconciler.Resource.Lifecycle

/-! What the five kinds have in common. What a kind reads from a state and what it writes to one
are the same lawful fields, the natural key and the secrets are plain texts among them, and a
document brings its own key. -/
namespace Reconciler

namespace TrapTarget

/-- A trap target reads back from the block it is stored as, wherever that block stands. -/
theorem read_toBlock (t : TrapTarget) (path : String) :
    read (.nested t.toBlock path) = .ok t := by
  have host : t.toBlock.get? "host" = some (toValue t.host) := by
    simp [toBlock, OrderedMap.ofList]
  have port : t.toBlock.get? "port" = some (toValue t.port) := by
    simp [toBlock, OrderedMap.ofList]
  have community : t.toBlock.get? "community" = some (toValue t.community) := by
    simp [toBlock, OrderedMap.ofList]
  simp only [read, Reading.get, Reading.nested, host, port, community,
    ExactConversion.ofValue?_toValue]
  rfl

end TrapTarget

namespace Node

def blank : Node := ⟨"", "", "", [], "", "", ""⟩

def fields : List (Field Node) := [
  .plain "node_id" nodeId fun r x => { r with nodeId := x },
  .plain "name" name fun r x => { r with name := x },
  .plain "description" description fun r x => { r with description := x },
  .plain "tags" tags fun r x => { r with tags := x },
  .plain "site" site fun r x => { r with site := x },
  .plain "status" status fun r x => { r with status := x },
  .plain "public_ip" publicIp fun r x => { r with publicIp := x }]

theorem lawfulFields : LawfulFields fields blank where
  faithful := by simp [fields, Field.faithful_plain]
  distinct := by decide
  get_fill _ := by
    simp only [fields, List.forall_mem_cons]
    exact ⟨rfl, rfl, rfl, rfl, rfl, rfl, rfl, List.forall_mem_nil _⟩
  fill_get r := by
    cases r
    rfl

theorem materialize_eq (s : DeclaredState) : materialize s = loadAll fields blank s := by
  simp only [materialize, loadAll, fields, List.foldlM_cons, List.foldlM_nil, Field.load,
    Field.plain, bind_assoc, pure_bind]

end Node

namespace Snmp

def blank : Snmp := ⟨"", false, "", "", "", "", "", "", "", "", "", []⟩

def fields : List (Field Snmp) := [
  .plain "node_id" nodeId fun r x => { r with nodeId := x },
  .plain "enabled" enabled fun r x => { r with enabled := x },
  .plain "version" version fun r x => { r with version := x },
  .plain "community" community fun r x => { r with community := x },
  .plain "location" location fun r x => { r with location := x },
  .plain "contact" contact fun r x => { r with contact := x },
  .plain "username" username fun r x => { r with username := x },
  .plain "auth_protocol" authProtocol fun r x => { r with authProtocol := x },
  .plain "auth_passphrase" authPassphrase fun r x => { r with authPassphrase := x },
  .plain "priv_protocol" privProtocol fun r x => { r with privProtocol := x },
  .plain "priv_passphrase" privPassphrase fun r x => { r with privPassphrase := x },
  .blocks "trap_target" TrapTarget.read TrapTarget.toBlock trapTargets
    fun r x => { r with trapTargets := x }]

theorem lawfulFields : LawfulFields fields blank where
  faithful := by
    simp [fields, Field.faithful_plain, Field.faithful_blocks TrapTarget.read_toBlock]
  distinct := by decide
  get_fill _ := by
    simp only [fields, List.forall_mem_cons]
    exact ⟨rfl, rfl, rfl, rfl, rfl, rfl, rfl, rfl, rfl, rfl, rfl, rfl, List.forall_mem_nil _⟩
  fill_get r := by
    cases r
    rfl

theorem materialize_eq (s : DeclaredState) : materialize s = loadAll fields blank s := by
  simp only [materialize, loadAll, fields, List.foldlM_cons, List.foldlM_nil, Field.load,
    Field.plain, Field.blocks, bind_assoc, pure_bind]

end Snmp

namespace CpuLimits

def blank : CpuLimits := ⟨"", 0, 0, []⟩

def fields : List (Field CpuLimits) := [
  .plain "node_id" nodeId fun r x => { r with nodeId := x },
  .plain "max_percent" maxPercent fun r x => { r with maxPercent := x },
  .plain "shares" shares fun r x => { r with shares := x },
  .plain "pinned_cores" pinnedCores fun r x => { r with pinnedCores := x }]

theorem lawfulFields : LawfulFields fields blank where
  faithful := by simp [fields, Field.faithful_plain]
  distinct := by decide
  get_fill _ := by
    simp only [fields, List.forall_mem_cons]
    exact ⟨rfl, rfl, rfl, rfl, List.forall_mem_nil _⟩
  fill_get r := by
    cases r
    rfl

theorem materialize_eq (s : DeclaredState) : materialize s = loadAll fields blank s := by
  simp only [materialize, loadAll, fields, List.foldlM_cons, List.foldlM_nil, Field.load,
    Field.plain, bind_assoc, pure_bind]

end CpuLimits

namespace IoLimits

def blank : IoLimits := ⟨"", 0, 0, 0, 0⟩

def fields : List (Field IoLimits) := [
  .plain "node_id" nodeId fun r x => { r with nodeId := x },
  .plain "read_bps" readBps fun r x => { r with readBps := x },
  .plain "write_bps" writeBps fun r x => { r with writeBps := x },
  .plain "read_iops" readIops fun r x => { r with readIops := x },
  .plain "write_iops" writeIops fun r x => { r with writeIops := x }]

theorem lawfulFields : LawfulFields fields blank where
  faithful := by simp [fields, Field.faithful_plain]
  distinct := by decide
  get_fill _ := by
    simp only [fields, List.forall_mem_cons]
    exact ⟨rfl, rfl, rfl, rfl, rfl, List.forall_mem_nil _⟩
  fill_get r := by
    cases r
    rfl

theorem materialize_eq (s : DeclaredState) : materialize s = loadAll fields blank s := by
  simp only [materialize, loadAll, fields, List.foldlM_cons, List.foldlM_nil, Field.load,
    Field.plain, bind_assoc, pure_bind]

end IoLimits

namespace License

def blank : License := ⟨"", "", "", 0, ""⟩

def fields : List (Field License) := [
  .plain "node_id" nodeId fun r x => { r with nodeId := x },
  .plain "license_key" licenseKey fun r x => { r with licenseKey := x },
  .plain "product" product fun r x => { r with product := x },
  .plain "seats" seats fun r x => { r with seats := x },
  .plain "expires_at" expiresAt fun r x => { r with expiresAt := x }]

theorem lawfulFields : LawfulFields fields blank where
  faithful := by simp [fields, Field.faithful_plain]
  distinct := by decide
  get_fill _ := by
    simp only [fields, List.forall_mem_cons]
    exact ⟨rfl, rfl, rfl, rfl, rfl, List.forall_mem_nil _⟩
  fill_get r := by
    cases r
    rfl

theorem materialize_eq (s : DeclaredState) : materialize s = loadAll fields blank s := by
  simp only [materialize, loadAll, fields, List.foldlM_cons, List.foldlM_nil, Field.load,
    Field.plain, bind_assoc, pure_bind]

end License

namespace Kind

def fields : (k : Kind) → List (Field k.schema.Record)
  | .node => Node.fields
  | .snmp => Snmp.fields
  | .cpuLimits => CpuLimits.fields
  | .ioLimits => IoLimits.fields
  | .license => License.fields

def blank : (k : Kind) → k.schema.Record
  | .node => Node.blank
  | .snmp => Snmp.blank
  | .cpuLimits => CpuLimits.blank
  | .ioLimits => IoLimits.blank
  | .license => License.blank

def zeros : Kind → List (String × Value)
  | .node => [("node_id", .string ""), ("name", .string ""), ("description", .string ""),
    ("tags", .list []), ("site", .string ""), ("status", .string ""), ("public_ip", .string "")]
  | .snmp => [("node_id", .string ""), ("enabled", .bool false), ("version", .string ""),
    ("community", .string ""), ("location", .string ""), ("contact", .string ""),
    ("username", .string ""), ("auth_protocol", .string ""), ("auth_passphrase", .string ""),
    ("priv_protocol", .string ""), ("priv_passphrase", .string ""), ("trap_target", .list [])]
  | .cpuLimits => [("node_id", .string ""), ("max_percent", .int 0), ("shares", .int 0),
    ("pinned_cores", .list [])]
  | .ioLimits => [("node_id", .string ""), ("read_bps", .int 0), ("write_bps", .int 0),
    ("read_iops", .int 0), ("write_iops", .int 0)]
  | .license => [("node_id", .string ""), ("license_key", .string ""), ("product", .string ""),
    ("seats", .int 0), ("expires_at", .string "")]

def keys (k : Kind) : List String := k.zeros.map Prod.fst

/-- Which part of a record belongs under which declared key, and as which value. -/
def parts : (k : Kind) → k.schema.Record → List (String × Value)
  | .node => fun (r : Node) => [("node_id", toValue r.nodeId), ("name", toValue r.name),
    ("description", toValue r.description), ("tags", toValue r.tags), ("site", toValue r.site),
    ("status", toValue r.status), ("public_ip", toValue r.publicIp)]
  | .snmp => fun (r : Snmp) => [("node_id", toValue r.nodeId), ("enabled", toValue r.enabled),
    ("version", toValue r.version), ("community", toValue r.community),
    ("location", toValue r.location), ("contact", toValue r.contact),
    ("username", toValue r.username), ("auth_protocol", toValue r.authProtocol),
    ("auth_passphrase", toValue r.authPassphrase), ("priv_protocol", toValue r.privProtocol),
    ("priv_passphrase", toValue r.privPassphrase),
    ("trap_target", toValue (r.trapTargets.map fun t => (.ofList [("host", toValue t.host),
      ("port", toValue t.port), ("community", toValue t.community)] : Block)))]
  | .cpuLimits => fun (r : CpuLimits) => [("node_id", toValue r.nodeId),
    ("max_percent", toValue r.maxPercent), ("shares", toValue r.shares),
    ("pinned_cores", toValue r.pinnedCores)]
  | .ioLimits => fun (r : IoLimits) => [("node_id", toValue r.nodeId),
    ("read_bps", toValue r.readBps), ("write_bps", toValue r.writeBps),
    ("read_iops", toValue r.readIops), ("write_iops", toValue r.writeIops)]
  | .license => fun (r : License) => [("node_id", toValue r.nodeId),
    ("license_key", toValue r.licenseKey), ("product", toValue r.product),
    ("seats", toValue r.seats), ("expires_at", toValue r.expiresAt)]

theorem lawfulFields (k : Kind) : LawfulFields k.fields k.blank := by
  cases k with
  | node => exact Node.lawfulFields
  | snmp => exact Snmp.lawfulFields
  | cpuLimits => exact CpuLimits.lawfulFields
  | ioLimits => exact IoLimits.lawfulFields
  | license => exact License.lawfulFields

/-- The keys that a kind reads are those of its fields, in their order. -/
theorem materialize_eq (k : Kind) (s : DeclaredState) :
    k.schema.materialize s = loadAll k.fields k.blank s := by
  cases k with
  | node => exact Node.materialize_eq s
  | snmp => exact Snmp.materialize_eq s
  | cpuLimits => exact CpuLimits.materialize_eq s
  | ioLimits => exact IoLimits.materialize_eq s
  | license => exact License.materialize_eq s

/-- So are the keys that it writes. -/
theorem project_eq (k : Kind) (r : k.schema.Record) (s : DeclaredState) :
    k.schema.project r s = storeAll k.fields r s := by
  cases k <;> rfl

theorem parts_eq (k : Kind) (r : k.schema.Record) :
    k.parts r = k.fields.map fun f => (f.key, f.store r) := by
  cases k <;> rfl

/-- The parts of a record are what its fields store. -/
theorem mem_parts {k : Kind} {r : k.schema.Record} {x : String} {v : Value} :
    (x, v) ∈ k.parts r ↔ ∃ f ∈ k.fields, f.key = x ∧ f.store r = v := by
  simp only [parts_eq, List.mem_map, Prod.mk.injEq]

theorem zeros_eq (k : Kind) : k.zeros = k.parts k.blank := by
  cases k <;> rfl

theorem mem_keys {k : Kind} {x : String} : x ∈ k.keys ↔ ∃ f ∈ k.fields, f.key = x := by
  simp only [keys, zeros_eq, parts_eq, List.map_map, List.mem_map, Function.comp_apply]

theorem mem_keys_of_field {k : Kind} {f : Field k.schema.Record} (hf : f ∈ k.fields) :
    f.key ∈ k.keys :=
  mem_keys.2 ⟨f, hf, rfl⟩

theorem materialize_eq_ok_iff (k : Kind) (s : DeclaredState) (r : k.schema.Record) :
    k.schema.materialize s = .ok r ↔ ∀ f ∈ k.fields, f.read (.ofState s) = .ok (f.get r) := by
  rw [materialize_eq]
  exact loadAll_eq_ok_iff k.lawfulFields s r

theorem materialize_of_get? {k : Kind} {s : DeclaredState} {r : k.schema.Record}
    (h : ∀ f ∈ k.fields, s.get? f.key = some (f.store r)) : k.schema.materialize s = .ok r := by
  rw [materialize_eq]
  exact loadAll_of_get? k.lawfulFields h

@[simp] theorem id_project (k : Kind) (r : k.schema.Record) (s : DeclaredState) :
    (k.schema.project r s).id = s.id := by
  rw [project_eq, id_storeAll]

theorem get?_project_of_mem {k : Kind} {f : Field k.schema.Record} (hf : f ∈ k.fields)
    (r : k.schema.Record) (s : DeclaredState) :
    (k.schema.project r s).get? f.key = some (f.store r) := by
  rw [project_eq]
  exact get?_storeAll_of_mem k.lawfulFields.distinct hf r s

theorem get?_project_of_not_mem {k : Kind} {x : String} (hx : x ∉ k.keys)
    (r : k.schema.Record) (s : DeclaredState) : (k.schema.project r s).get? x = s.get? x := by
  rw [project_eq]
  refine get?_storeAll_of_not_mem (fun hmem => hx ?_) r s
  exact mem_keys.2 (List.mem_map.1 hmem)

theorem materialize_project (k : Kind) (r : k.schema.Record) (s : DeclaredState) :
    k.schema.materialize (k.schema.project r s) = .ok r :=
  materialize_of_get? fun _ hf => get?_project_of_mem hf r s

/-- An identity is no part of a record. -/
@[simp] theorem materialize_setId (k : Kind) (s : DeclaredState) (id : String) :
    k.schema.materialize (s.setId id) = k.schema.materialize s := by
  cases k <;> rfl

@[simp] theorem materialize_clearId (k : Kind) (s : DeclaredState) :
    k.schema.materialize s.clearId = k.schema.materialize s := by
  cases k <;> rfl

/-- Each secret is declared as a text. -/
theorem secret_mem (k : Kind) {x : String} (hx : x ∈ k.secretKeys) :
    ∃ (get : k.schema.Record → String) (set : k.schema.Record → String → k.schema.Record),
      Field.plain x get set ∈ k.fields := by
  cases k with
  | node | cpuLimits | ioLimits => cases hx
  | snmp =>
    simp only [secretKeys, List.mem_cons, List.not_mem_nil, or_false] at hx
    rcases hx with rfl | rfl
    · exact ⟨_, _, List.mem_of_getElem? (i := 8) rfl⟩
    · exact ⟨_, _, List.mem_of_getElem? (i := 10) rfl⟩
  | license =>
    simp only [secretKeys, List.mem_cons, List.not_mem_nil, or_false] at hx
    subst hx
    exact ⟨_, _, List.mem_of_getElem? (i := 1) rfl⟩

/-- The natural key is declared as a text too. -/
theorem naturalKey_mem (k : Kind) : ∃ set : k.schema.Record → String → k.schema.Record,
    Field.plain k.naturalKey k.schema.naturalKey set ∈ k.fields := by
  cases k <;> exact ⟨_, .head _⟩

theorem secretKeys_nodup (k : Kind) : k.secretKeys.Nodup := by
  cases k <;> decide

@[simp] theorem naturalKey_ofDocument (k : Kind) (key : String) (d : k.schema.Document) :
    k.schema.naturalKey (k.schema.ofDocument key d) = key := by
  cases k <;> rfl

end Kind

def Snmp.monitored : Snmp :=
  ⟨"abc123", true, "3", "", "", "", "monitor", "", "secret", "", "", []⟩

end Reconciler
