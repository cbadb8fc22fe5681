import Reconciler.Proofs.Declared.Misfit
import Reconciler.Proofs.Resource.Kinds

/-! Which states yield a record of a kind, which record that is, and what is to blame for a state
that yields none. -/
namespace Reconciler

namespace TrapTarget

def forms : List (String × Form) :=
  [("host", .text), ("port", .natural UInt16.size), ("community", .text)]

/-- A trap target is stored as the values of its three parts. -/
theorem toBlock_eq_filledBlock_iff {t : TrapTarget} {block : Block} :
    t.toBlock = filledBlock forms block ↔
      toValue t.host = (block.get? "host").getD (.string "") ∧
      toValue t.port = (block.get? "port").getD (.int 0) ∧
      toValue t.community = (block.get? "community").getD (.string "") := by
  constructor
  · intro h
    have hget (key : String) := congrArg (fun b : Block => b.get? key) h
    have host := hget "host"
    have port := hget "port"
    have community := hget "community"
    simp [toBlock, filledBlock, forms, OrderedMap.ofList, Form.zero] at host port community
    exact ⟨host, port, community⟩
  · rintro ⟨host, port, community⟩
    rw [toBlock, host, port, community]
    rfl

theorem readsBlock : Reading.ReadsBlock read toBlock forms where
  ok_iff block path t := by
    have hread : read (.nested block path) = .ok t ↔
        (Reading.nested block path).get String "host" = .ok t.host ∧
        (Reading.nested block path).get UInt16 "port" = .ok t.port ∧
        (Reading.nested block path).get String "community" = .ok t.community := by
      simp only [read, bind_eq_ok_iff]
      constructor
      · rintro ⟨host, hhost, port, hport, community, hcommunity, ht⟩
        cases ht
        exact ⟨hhost, hport, hcommunity⟩
      · rintro ⟨hhost, hport, hcommunity⟩
        exact ⟨_, hhost, _, hport, _, hcommunity, rfl⟩
    rw [hread, Reading.get_eq_ok_iff Form.describes_text, Reading.get_eq_ok_iff Form.describes_text,
      Reading.get_eq_ok_iff Form.describes_natural16, toBlock_eq_filledBlock_iff]
    simp only [FitsBlock, forms, List.forall_mem_cons]
    tauto
  error_iff block path e := by
    have hread : read (.nested block path) = .error e ↔
        (Reading.nested block path).get String "host" = .error e ∨
        (∃ x, (Reading.nested block path).get String "host" = .ok x) ∧
          ((Reading.nested block path).get UInt16 "port" = .error e ∨
          (∃ x, (Reading.nested block path).get UInt16 "port" = .ok x) ∧
            (Reading.nested block path).get String "community" = .error e) := by
      rw [read, bind_eq_error_iff]
      refine or_congr_right ?_
      simp only [bind_eq_error_iff (f := fun port => _ >>= _), bind_pure_eq_error_iff,
        exists_and_right]
    rw [hread, Reading.get_eq_error_iff Form.describes_text,
      Reading.get_eq_error_iff Form.describes_text,
      Reading.get_eq_error_iff Form.describes_natural16,
      Reading.exists_get_iff Form.describes_text, Reading.exists_get_iff Form.describes_natural16]
    simp only [BlamesBlock, forms, first_cons, not_first_nil, and_false, or_false]
    rfl

end TrapTarget

namespace Kind

/-- The declared keys of a kind in the order in which they are read, and what they may hold. -/
def shapes : Kind → List (String × Shape)
  | .node => [("node_id", .plain .text), ("name", .plain .text), ("description", .plain .text),
    ("tags", .plain (.list .text)), ("site", .plain .text), ("status", .plain .text),
    ("public_ip", .plain .text)]
  | .snmp => [("node_id", .plain .text), ("enabled", .plain .flag), ("version", .plain .text),
    ("community", .plain .text), ("location", .plain .text), ("contact", .plain .text),
    ("username", .plain .text), ("auth_protocol", .plain .text),
    ("auth_passphrase", .plain .text), ("priv_protocol", .plain .text),
    ("priv_passphrase", .plain .text), ("trap_target", .blocks TrapTarget.forms)]
  | .cpuLimits => [("node_id", .plain .text), ("max_percent", .plain (.natural UInt32.size)),
    ("shares", .plain (.natural UInt32.size)),
    ("pinned_cores", .plain (.list (.natural UInt32.size)))]
  | .ioLimits => [("node_id", .plain .text), ("read_bps", .plain .integer),
    ("write_bps", .plain .integer), ("read_iops", .plain (.natural UInt32.size)),
    ("write_iops", .plain (.natural UInt32.size))]
  | .license => [("node_id", .plain .text), ("license_key", .plain .text),
    ("product", .plain .text), ("seats", .plain (.natural UInt32.size)),
    ("expires_at", .plain .text)]

theorem follow (k : Kind) : Follow k.fields k.shapes := by
  have text {R : Type} {key : String} {get : R → String} {set : R → String → R} :
      (Field.plain key get set).Follows (.plain .text) := Field.follows_plain Form.describes_text
  have count {R : Type} {key : String} {get : R → UInt32} {set : R → UInt32 → R} :
      (Field.plain key get set).Follows (.plain (.natural UInt32.size)) :=
    Field.follows_plain Form.describes_natural32
  have integer {R : Type} {key : String} {get : R → Int64} {set : R → Int64 → R} :
      (Field.plain key get set).Follows (.plain .integer) :=
    Field.follows_plain Form.describes_integer
  cases k with
  | node =>
    exact .cons ⟨rfl, text⟩ <| .cons ⟨rfl, text⟩ <| .cons ⟨rfl, text⟩ <|
      .cons ⟨rfl, Field.follows_plain Form.describes_text.list⟩ <| .cons ⟨rfl, text⟩ <|
      .cons ⟨rfl, text⟩ <| .cons ⟨rfl, text⟩ .nil
  | snmp =>
    exact .cons ⟨rfl, text⟩ <| .cons ⟨rfl, Field.follows_plain Form.describes_flag⟩ <|
      .cons ⟨rfl, text⟩ <| .cons ⟨rfl, text⟩ <| .cons ⟨rfl, text⟩ <| .cons ⟨rfl, text⟩ <|
      .cons ⟨rfl, text⟩ <| .cons ⟨rfl, text⟩ <| .cons ⟨rfl, text⟩ <| .cons ⟨rfl, text⟩ <|
      .cons ⟨rfl, text⟩ <| .cons ⟨rfl, Field.follows_blocks TrapTarget.readsBlock⟩ .nil
  | cpuLimits =>
    exact .cons ⟨rfl, text⟩ <| .cons ⟨rfl, count⟩ <| .cons ⟨rfl, count⟩ <|
      .cons ⟨rfl, Field.follows_plain Form.describes_natural32.list⟩ .nil
  | ioLimits =>
    exact .cons ⟨rfl, text⟩ <| .cons ⟨rfl, integer⟩ <| .cons ⟨rfl, integer⟩ <|
      .cons ⟨rfl, count⟩ <| .cons ⟨rfl, count⟩ .nil
  | license =>
    exact .cons ⟨rfl, text⟩ <| .cons ⟨rfl, text⟩ <| .cons ⟨rfl, text⟩ <| .cons ⟨rfl, count⟩ <|
      .cons ⟨rfl, text⟩ .nil

/-- A state yields a record exactly when every mapped key is absent or holds a value of its shape.
It is then the record whose parts are these values, each under its own key, and zeros for absent
keys. Otherwise the first of the values that do not fit is to blame, by its place and its own
type. -/
theorem materialize_exact (k : Kind) (s : DeclaredState) :
    ((∃ r, k.schema.materialize s = .ok r) ↔ FitsState k.shapes s) ∧
    (∀ r, k.schema.materialize s = .ok r ↔ FitsState k.shapes s ∧
      k.parts r = k.shapes.map fun entry => (entry.1, entry.2.filled (s.get? entry.1))) ∧
    ∀ e, k.schema.materialize s = .error e ↔ BlamesState k.shapes s e := by
  simp only [materialize_eq, parts_eq]
  exact ⟨exists_loadAll_iff k.lawfulFields k.follow,
    fun _ => loadAll_eq_ok_iff_filled k.lawfulFields k.follow,
    fun _ => loadAll_eq_error_iff k.follow⟩

/-- The second of two trap targets has a text for its port. -/
example : snmp.schema.materialize ((DeclaredState.empty.set "node_id" (.string "abc123")).set
    "trap_target" (.list [.map (TrapTarget.toBlock ⟨"10.0.0.1", 162, "public"⟩),
      .map ((TrapTarget.toBlock ⟨"10.0.0.1", 162, "public"⟩).insert "port" (.string "162"))])) =
    .error ⟨"trap_target.1.port", "int", "string"⟩ := rfl

end Kind
end Reconciler
