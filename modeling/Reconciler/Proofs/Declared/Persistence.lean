import Reconciler.Manifest
import Reconciler.Proofs.Declared.Spelling
import Reconciler.Proofs.Time.Timestamp

/-! What is written to a file comes back from it: a declared state of its own, and a manifest with
all its entries. -/
namespace Reconciler

theorem Json.nesting_le_of_mem {j : Json} {items : List Json} (h : j ∈ items) :
    j.nesting ≤ nestingOfItems items := by
  induction items with
  | nil => cases h
  | cons i items ih =>
    rw [nestingOfItems]
    cases h with
    | head => exact Nat.le_max_left _ _
    | tail _ h => exact (ih h).trans (Nat.le_max_right _ _)

namespace Entry
variable {e : Entry}

theorem nesting_toJson (e : Entry) : e.toJson.nesting = e.state.toJson.nesting + 1 := by
  simp [toJson, Json.record, Json.nesting, Json.nestingOfMembers, Json.text]

theorem wellSpelled_toJson (h : e.state.FloatFree) : e.toJson.WellSpelled := by
  have hstate := DeclaredState.wellSpelled_toJson h
  exact .record (List.forall_mem_cons.2 ⟨.text e.kind, List.forall_mem_singleton.2 hstate⟩)

theorem ofJson?_toJson (h : e.state.FloatFree) {room : Nat} (hroom : e.toJson.nesting ≤ room) :
    ofJson? room e.toJson = some e := by
  rw [nesting_toJson] at hroom
  have hstate := DeclaredState.ofJson?_toJson h (Nat.le_sub_one_of_lt hroom)
  rw [ofJson?, toJson, Json.members?_record (by simp) (by simp)]
  simp [Json.required, hstate]

section List
variable {entries : List Entry}

theorem wellSpelled_listToJson (h : ∀ e ∈ entries, e.state.FloatFree) :
    (listToJson entries).WellSpelled :=
  .array (List.forall_mem_map.2 fun e he => wellSpelled_toJson (h e he))

/-- A list of entries comes back if there is room for it. -/
theorem listOfJson?_listToJson (h : ∀ e ∈ entries, e.state.FloatFree) {room : Nat}
    (hroom : (listToJson entries).nesting ≤ room) :
    listOfJson? room (listToJson entries) = some entries := by
  refine Json.toList?_array_map_of_mem fun e he => ofJson?_toJson (h e he) ?_
  have hitem := Json.nesting_le_of_mem (List.mem_map_of_mem (f := toJson) he)
  rw [listToJson, Json.nesting] at hroom
  exact hitem.trans (Nat.le_sub_one_of_lt hroom)

end List
end Entry

namespace Manifest
variable {m : Manifest}

theorem nesting_toJson (m : Manifest) :
    m.toJson.nesting = (Entry.listToJson m.resources).nesting + 1 := by
  obtain ⟨resources, lastApplied⟩ := m
  cases lastApplied <;>
    simp [toJson, Json.record, Json.nesting, Json.nestingOfMembers, Json.text]

theorem wellSpelled_toJson (h : ∀ e ∈ m.resources, e.state.FloatFree) :
    m.toJson.WellSpelled := by
  have hresources := Entry.wellSpelled_listToJson h
  have htime : ((m.lastApplied.map fun t => Json.text t.text).getD .null).WellSpelled := by
    cases m.lastApplied with
    | none => exact .null
    | some t => exact .text t.text
  exact .record (List.forall_mem_cons.2 ⟨hresources, List.forall_mem_singleton.2 htime⟩)

theorem ofJson?_toJson (h : ∀ e ∈ m.resources, e.state.FloatFree) {room : Nat}
    (hroom : m.toJson.nesting ≤ room) : ofJson? room m.toJson = some m := by
  rw [nesting_toJson] at hroom
  have hresources := Entry.listOfJson?_listToJson h (Nat.le_sub_one_of_lt hroom)
  obtain ⟨resources, lastApplied⟩ := m
  have htime : ((lastApplied.map fun t => Json.text t.text).getD .null).toOption?
      (fun j => j.toText?.bind Timestamp.parse?) = some lastApplied := by
    cases lastApplied with
    | none => rfl
    | some t => exact Json.toOption?_text t.parse?_text
  rw [ofJson?, toJson, Json.members?_record (by simp) (by simp)]
  simp [hresources, htime]

end Manifest

/-- Without floats, and as long as its text does not nest too deep, a state comes back from its
compact text and from the file it is saved to, and so does a manifest with every entry in place. -/
theorem Manifest.persisted_round_trips :
    (∀ s : DeclaredState, s.FloatFree → s.toJson.nesting ≤ Json.nestingLimit →
      DeclaredState.parse? s.compact = some s ∧
      DeclaredState.parse? (s.pretty ++ "\n") = some s) ∧
    ∀ m : Manifest, (∀ e ∈ m.resources, e.state.FloatFree) →
      m.toJson.nesting ≤ Json.nestingLimit →
      Manifest.parse? m.toJson.compact = some m ∧
      Manifest.parse? (m.toJson.pretty ++ "\n") = some m := by
  refine ⟨fun s hs hroom => ?_, fun m hm hroom => ?_⟩
  · have hspelled := DeclaredState.wellSpelled_toJson hs
    have hread := DeclaredState.ofJson?_toJson hs hroom
    rw [DeclaredState.parse?, DeclaredState.parse?, DeclaredState.compact, DeclaredState.pretty,
      Json.parse?_compact hspelled, Json.parse?_pretty_newline hspelled]
    exact ⟨hread, hread⟩
  · have hspelled := Manifest.wellSpelled_toJson hm
    have hread := Manifest.ofJson?_toJson hm hroom
    rw [Manifest.parse?, Manifest.parse?, Json.parse?_compact hspelled,
      Json.parse?_pretty_newline hspelled]
    exact ⟨hread, hread⟩

private def nestedState (depth : Nat) : DeclaredState :=
  (DeclaredState.empty.set "levels" (depth.repeat (fun v => .list [v]) (.bool false))).set "range"
    (.map (OrderedMap.empty.insert "\"quoted\"\t"
      (.list [.int Int64.minValue, .int Int64.maxValue])))

private def appliedManifest : Manifest :=
  ⟨[⟨"snmp", nestedState 122⟩, ⟨"node", (nestedState 0).setId "node_abc123"⟩],
    some ⟨96485292, 86399, 1999999999⟩⟩

/-- At the limit of what a reader follows. -/
theorem Manifest.persisted_round_trips_nested :
    ((nestedState 125).toJson.nesting = 127 ∧
      DeclaredState.parse? (nestedState 125).compact = some (nestedState 125) ∧
      DeclaredState.parse? ((nestedState 125).pretty ++ "\n") = some (nestedState 125)) ∧
    appliedManifest.toJson.nesting = 127 ∧
      Manifest.parse? appliedManifest.toJson.compact = some appliedManifest ∧
      Manifest.parse? (appliedManifest.toJson.pretty ++ "\n") = some appliedManifest := by
  have hstate : (nestedState 125).toJson.nesting = 127 := by decide +kernel
  have hmanifest : appliedManifest.toJson.nesting = 127 := by decide +kernel
  have hfree : ∀ e ∈ appliedManifest.resources, e.state.FloatFree := by
    simp only [appliedManifest, List.forall_mem_cons]
    exact ⟨by decide +kernel, by decide +kernel, List.forall_mem_nil _⟩
  exact ⟨⟨hstate, persisted_round_trips.1 _ (by decide +kernel) hstate.le⟩, hmanifest,
    persisted_round_trips.2 _ hfree hmanifest.le⟩

end Reconciler
