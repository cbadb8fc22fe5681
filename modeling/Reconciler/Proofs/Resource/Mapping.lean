import Reconciler.Proofs.Resource.Kinds

/-! Records and declared states, there and back. A record that is written to a state can be read
from it again and has touched nothing else; a state that a record is read from keeps its values
when that record is written back, except that blocks lose what the record has no place for. -/
namespace Reconciler

namespace Reading

/-- What an exact reading makes of a block is what stands there, or else the zero of its type. -/
theorem getD_of_get {α : Type} [OfValue α] [ToValue α] [ExactConversion α] {r : Reading}
    {key : String} {x : α} (h : r.get α key = .ok x) :
    toValue x = (r.block.get? key).getD (toValue (OfValue.zero : α)) := by
  rcases get?_block_of_get h with hget | ⟨hget, rfl⟩
  · rw [hget, Option.getD_some]
  · rw [hget, Option.getD_none]

section Blocks
variable {α : Type} {read : Reading → Except TypeMismatch α} {write : α → Block}
  {trim : Block → Block}
  (h : ∀ block path x, read (.nested block path) = .ok x → write x = trim block)
include h

/-- A list that reads item by item is one of blocks, and each is written back in its own way. -/
theorem exists_blocks_of_items {path : String} {index : Nat} {values : List Value} {xs : List α}
    (hread : items path read index values = .ok xs) :
    ∃ blocks : List Block, values = blocks.map .map ∧ xs.map write = blocks.map trim := by
  induction values generalizing index xs with
  | nil =>
    cases hread
    exact ⟨[], rfl, rfl⟩
  | cons v values ih =>
    cases v with
    | map block =>
      obtain ⟨x, hx, hread⟩ := exists_of_bind hread
      obtain ⟨ys, hys, hread⟩ := exists_of_bind hread
      cases hread
      obtain ⟨blocks, hblocks, hwrite⟩ := ih hys
      refine ⟨block :: blocks, by rw [hblocks, List.map_cons], ?_⟩
      rw [List.map_cons, List.map_cons, h block _ x hx, hwrite]
    | bool | int | float | string | list => cases hread

theorem exists_blocks_of_blocks {s : DeclaredState} {key : String} {xs : List α}
    (hread : (ofState s).blocks key read = .ok xs) : ∃ blocks : List Block,
      (s.get? key).getD (.list []) = toValue blocks ∧ xs.map write = blocks.map trim := by
  simp only [blocks, ofState] at hread
  cases hs : s.values.get? key with
  | none =>
    rw [hs] at hread
    cases hread
    exact ⟨[], by rw [DeclaredState.get?, hs]; rfl, rfl⟩
  | some v =>
    rw [hs] at hread
    cases v with
    | list values =>
      obtain ⟨blocks, rfl, hwrite⟩ := exists_blocks_of_items h hread
      exact ⟨blocks, by rw [DeclaredState.get?, hs]; rfl, hwrite⟩
    | bool | int | float | string | map => cases hread

end Blocks
end Reading

namespace TrapTarget

/-- A block with what a trap target has a place for, and nothing else. -/
def trimmed (block : Block) : Block :=
  .ofList [("host", (block.get? "host").getD (.string "")),
    ("port", (block.get? "port").getD (.int 0)),
    ("community", (block.get? "community").getD (.string ""))]

theorem toBlock_of_read {block : Block} {path : String} {t : TrapTarget}
    (h : read (.nested block path) = .ok t) : t.toBlock = trimmed block := by
  obtain ⟨host, hhost, h⟩ := exists_of_bind h
  obtain ⟨port, hport, h⟩ := exists_of_bind h
  obtain ⟨community, hcommunity, h⟩ := exists_of_bind h
  cases h
  simp only [toBlock, Reading.getD_of_get hhost, Reading.getD_of_get hport,
    Reading.getD_of_get hcommunity]
  rfl

end TrapTarget

/-- A field that writes back what it has read, and its zero where there was nothing to read. -/
def Field.Restores {R : Type} (f : Field R) (zero : Value) : Prop :=
  ∀ s x, f.read (.ofState s) = .ok x → f.write x = (s.get? f.key).getD zero

theorem Field.restores_plain {R α : Type} [OfValue α] [ToValue α] [ExactConversion α]
    {key : String} {get : R → α} {set : R → α → R} {blank : R} (h : get blank = OfValue.zero) :
    (plain key get set).Restores ((plain key get set).store blank) := by
  intro s x hx
  change toValue (α := α) x = (s.get? key).getD (toValue (get blank))
  rw [h]
  exact Reading.getD_of_get hx

namespace Kind

/-- Each zero is what a blank record stores. -/
theorem mem_zeros {k : Kind} {x : String} {zero : Value} (h : (x, zero) ∈ k.zeros) :
    ∃ f ∈ k.fields, f.key = x ∧ f.store k.blank = zero := by
  rw [zeros_eq] at h
  exact mem_parts.1 h

/-- All fields but those of blocks write back what they have read. -/
theorem restores (k : Kind) : ∀ f ∈ k.fields, f.key ≠ "trap_target" →
    f.Restores (f.store k.blank) := by
  cases k with
  | node =>
    change ∀ f ∈ Node.fields, f.key ≠ "trap_target" → f.Restores (f.store Node.blank)
    simp [Node.fields, Node.blank, Field.restores_plain, OfValue.zero]
  | snmp =>
    change ∀ f ∈ Snmp.fields, f.key ≠ "trap_target" → f.Restores (f.store Snmp.blank)
    simp [Snmp.fields, Snmp.blank, Field.restores_plain, Field.blocks, OfValue.zero]
  | cpuLimits =>
    change ∀ f ∈ CpuLimits.fields, f.key ≠ "trap_target" → f.Restores (f.store CpuLimits.blank)
    simp [CpuLimits.fields, CpuLimits.blank, Field.restores_plain, OfValue.zero]
  | ioLimits =>
    change ∀ f ∈ IoLimits.fields, f.key ≠ "trap_target" → f.Restores (f.store IoLimits.blank)
    simp [IoLimits.fields, IoLimits.blank, Field.restores_plain, OfValue.zero]
  | license =>
    change ∀ f ∈ License.fields, f.key ≠ "trap_target" → f.Restores (f.store License.blank)
    simp [License.fields, License.blank, Field.restores_plain, OfValue.zero]

section Project
variable {k : Kind} {s : DeclaredState} {r : k.schema.Record}

/-- Writing a record a second time changes nothing. -/
theorem project_project (k : Kind) (r : k.schema.Record) (s : DeclaredState) :
    k.schema.project r (k.schema.project r s) = k.schema.project r s := by
  refine DeclaredState.ext_get? (k.id_project ..) fun x => ?_
  by_cases hx : x ∈ k.keys
  · obtain ⟨f, hf, rfl⟩ := mem_keys.1 hx
    rw [get?_project_of_mem hf, get?_project_of_mem hf]
  · exact get?_project_of_not_mem hx ..

theorem get?_project_materialized (hr : k.schema.materialize s = .ok r) {x : String} {zero : Value}
    (hx : (x, zero) ∈ k.zeros) (hplain : x ≠ "trap_target") :
    (k.schema.project r s).get? x = some ((s.get? x).getD zero) := by
  obtain ⟨f, hf, rfl, rfl⟩ := mem_zeros hx
  have hread := (k.materialize_eq_ok_iff s r).1 hr f hf
  rw [get?_project_of_mem hf, Field.store, k.restores f hf hplain s _ hread]

theorem get?_project_blocks (hr : k.schema.materialize s = .ok r) {zero : Value}
    (hx : ("trap_target", zero) ∈ k.zeros) : ∃ blocks : List Block,
      (s.get? "trap_target").getD zero = toValue blocks ∧
      (k.schema.project r s).get? "trap_target" =
        some (toValue (blocks.map TrapTarget.trimmed)) := by
  cases k with
  | snmp =>
    obtain rfl : zero = .list [] := by simpa [zeros] using hx
    let f : Field Snmp := .blocks "trap_target" TrapTarget.read TrapTarget.toBlock
      Snmp.trapTargets fun r x => { r with trapTargets := x }
    have hf : f ∈ snmp.fields := List.mem_of_getElem? (i := 11) rfl
    have hread := (snmp.materialize_eq_ok_iff s r).1 hr f hf
    obtain ⟨blocks, hblocks, hwrite⟩ :=
      Reading.exists_blocks_of_blocks (fun _ _ _ => TrapTarget.toBlock_of_read) hread
    refine ⟨blocks, hblocks, (get?_project_of_mem hf r s).trans ?_⟩
    exact congrArg (fun blocks => some (toValue blocks)) hwrite
  | node | cpuLimits | ioLimits | license => simp [zeros] at hx

/-- Mapping goes both ways, for every kind. What a record writes is what it is read from, and all
else in a state stays; what a state holds is what its record writes back, and what it lacks comes
back as a zero. -/
theorem mapping_round_trips (k : Kind) (s : DeclaredState) :
    (∀ r : k.schema.Record, k.schema.materialize (k.schema.project r s) = .ok r ∧
      (k.schema.project r s).id = s.id ∧
      (∀ x ∉ k.zeros.map Prod.fst, (k.schema.project r s).get? x = s.get? x) ∧
      k.schema.project r (k.schema.project r s) = k.schema.project r s) ∧
    ∀ r, k.schema.materialize s = .ok r →
      (∀ x zero, (x, zero) ∈ k.zeros → x ≠ "trap_target" →
        (k.schema.project r s).get? x = some ((s.get? x).getD zero)) ∧
      ∀ zero, ("trap_target", zero) ∈ k.zeros → ∃ blocks : List Block,
        (s.get? "trap_target").getD zero = toValue blocks ∧
        (k.schema.project r s).get? "trap_target" =
          some (toValue (blocks.map TrapTarget.trimmed)) := by
  refine ⟨fun r => ⟨k.materialize_project r s, k.id_project r s, ?_, k.project_project r s⟩, ?_⟩
  · exact fun x hx => get?_project_of_not_mem hx r s
  · intro r hr
    exact ⟨fun x zero => get?_project_materialized hr, fun zero => get?_project_blocks hr⟩

def watched : Snmp := { Snmp.blank with nodeId := "abc123", trapTargets := [⟨"sink", 0, ""⟩] }

def watchedState : DeclaredState where
  id := none
  values := .ofList [("node_id", .string "abc123"), ("trap_target",
    .list [.map (OrderedMap.ofList [("host", .string "sink"), ("note", .bool true)])])]

theorem mapping_round_trips_watched :
    snmp.schema.materialize watchedState = .ok watched ∧
    (snmp.schema.project watched watchedState).get? "node_id" = some (.string "abc123") ∧
    (snmp.schema.project watched watchedState).get? "enabled" = some (.bool false) ∧
    ∃ blocks : List Block, watchedState.get? "trap_target" = some (toValue blocks) ∧
      (snmp.schema.project watched watchedState).get? "trap_target" =
        some (toValue (blocks.map TrapTarget.trimmed)) := by
  obtain ⟨hplain, hblocks⟩ := (mapping_round_trips snmp watchedState).2 watched rfl
  obtain ⟨blocks, hfound, hwritten⟩ := hblocks _ (List.mem_of_getElem? (i := 11) rfl)
  exact ⟨rfl, hplain _ _ (.head _) (by decide),
    hplain _ _ (List.mem_of_getElem? (i := 1) rfl) (by decide), blocks,
    congrArg some hfound, hwritten⟩

end Project
end Kind

end Reconciler
