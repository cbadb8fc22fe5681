import Reconciler.Declared.State
import Reconciler.Proofs.Json.Reader

/-! Declared states and the JSON they are kept as. Values have no tag there, yet each comes back
with its type and content, at any depth, as long as it is no float. -/
namespace Reconciler

namespace Ascending
variable {α : Type} {b : Option String}

/-- Entries that are written to a map stand there above what was there before. -/
theorem get?_foldl_insert (m : Ascending α b) (acc : OrderedMap α) (key : String) :
    (m.toList.foldl (fun acc e => acc.insert e.1 e.2) acc).get? key =
      (m.get? key <|> acc.get? key) := by
  induction m generalizing acc with
  | nil => rfl
  | cons k above v r ih =>
    rw [toList, List.foldl_cons, ih, OrderedMap.get?_insert, get?]
    by_cases hkey : key = k
    · subst hkey
      rw [get?_eq_none_of_bound r (String.lt_irrefl key), if_pos rfl, if_pos rfl]
      rfl
    · rw [if_neg hkey, if_neg hkey]

end Ascending

/-- A map is the one that its own entries describe. -/
theorem OrderedMap.ofList_toList {α : Type} (m : OrderedMap α) : ofList m.toList = m := by
  refine Ascending.ext_get? _ _ fun key => ?_
  refine (Ascending.get?_foldl_insert m empty key).trans ?_
  cases m.get? key <;> rfl

namespace Value

mutual
/-- Whether there is no float in a value, at any depth. -/
def isFloatFree : Value → Bool
  | .float _ => false
  | .list items => areFloatFree items
  | .map block => entriesFloatFree block
  | .bool _ | .int _ | .string _ => true

def areFloatFree : List Value → Bool
  | [] => true
  | v :: vs => v.isFloatFree && areFloatFree vs

def entriesFloatFree {b : Option String} : Ascending Value b → Bool
  | .nil => true
  | .cons _ _ v r => v.isFloatFree && entriesFloatFree r
end

/-- An integer of 64 bits is spelled as one, at both ends of its range too. -/
theorem ofNumber?_ofInt (i : Int64) : ofNumber? (.ofInt i.toInt) = some (.int i) := by
  have h : (Json.number (.ofInt i.toInt)).toInt64? = some i := Json.toInt64?_int i
  rw [ofNumber?, h]

mutual
theorem ofJson?_toJson : (v : Value) → v.isFloatFree = true → ofJson? v.toJson = some v
  | .bool _, _ => rfl
  | .int i, _ => ofNumber?_ofInt i
  | .string _, _ => rfl
  | .list items, h => by
    rw [toJson, ofJson?, itemsOfJson?_itemsToJson items h, Option.map_some]
  | .map block, h => by
    rw [toJson, ofJson?, entriesOfJson?_entriesToJson block h, Option.map_some,
      OrderedMap.ofList_toList]

theorem itemsOfJson?_itemsToJson : (vs : List Value) → areFloatFree vs = true →
    itemsOfJson? (itemsToJson vs) = some vs
  | [], _ => rfl
  | v :: vs, h => by
    rw [areFloatFree, Bool.and_eq_true] at h
    rw [itemsToJson, itemsOfJson?, ofJson?_toJson v h.1, itemsOfJson?_itemsToJson vs h.2]
    rfl

theorem entriesOfJson?_entriesToJson {b : Option String} : (m : Ascending Value b) →
    entriesFloatFree m = true → entriesOfJson? (entriesToJson m) = some m.toList
  | .nil, _ => rfl
  | .cons k _ v r, h => by
    rw [entriesFloatFree, Bool.and_eq_true] at h
    rw [entriesToJson, entriesOfJson?, ofJson?_toJson v h.1, entriesOfJson?_entriesToJson r h.2]
    rfl
end

theorem object_entriesToJson {b : Option String} (m : Ascending Value b) :
    Json.object (entriesToJson m) = .record (m.toList.map fun e => (e.1, e.2.toJson)) := by
  induction m with
  | nil => rfl
  | cons k above v r ih =>
    rw [entriesToJson, Json.object.inj ih]
    rfl

mutual
theorem wellSpelled_toJson : (v : Value) → v.isFloatFree = true → v.toJson.WellSpelled
  | .bool b, _ => .bool b
  | .int _, _ => .number (List.forall_mem_nil _)
  | .string s, _ => .text s
  | .list items, h => .array (wellSpelled_itemsToJson items h)
  | .map block, h => by
    rw [toJson, object_entriesToJson]
    exact .record (List.forall_mem_map.2 (wellSpelled_entriesToJson block h))

theorem wellSpelled_itemsToJson : (vs : List Value) → areFloatFree vs = true →
    ∀ j ∈ itemsToJson vs, j.WellSpelled
  | [], _ => List.forall_mem_nil _
  | v :: vs, h => by
    rw [areFloatFree, Bool.and_eq_true] at h
    exact List.forall_mem_cons.2 ⟨wellSpelled_toJson v h.1, wellSpelled_itemsToJson vs h.2⟩

theorem wellSpelled_entriesToJson {b : Option String} : (m : Ascending Value b) →
    entriesFloatFree m = true → ∀ e ∈ m.toList, e.2.toJson.WellSpelled
  | .nil, _ => List.forall_mem_nil _
  | .cons k _ v r, h => by
    rw [entriesFloatFree, Bool.and_eq_true] at h
    exact List.forall_mem_cons.2 ⟨wellSpelled_toJson v h.1, wellSpelled_entriesToJson r h.2⟩
end

end Value

namespace Block
variable {block : Block}

theorem ofJson?_toJson (h : Value.entriesFloatFree block = true) :
    ofJson? block.toJson = some block := by
  rw [toJson, ofJson?, Value.entriesOfJson?_entriesToJson block h, Option.map_some,
    OrderedMap.ofList_toList]

theorem wellSpelled_toJson (h : Value.entriesFloatFree block = true) :
    block.toJson.WellSpelled :=
  Value.wellSpelled_toJson (.map block) h

end Block

namespace DeclaredState
variable {s : DeclaredState}

def FloatFree (s : DeclaredState) : Prop := Value.entriesFloatFree s.values = true

instance : Decidable s.FloatFree := inferInstanceAs (Decidable (_ = true))

/-- A state nests one level deeper than its values. -/
theorem nesting_toJson (s : DeclaredState) : s.toJson.nesting = s.values.toJson.nesting + 1 := by
  obtain ⟨id, values⟩ := s
  cases id <;> simp [toJson, Json.record, Json.nesting, Json.nestingOfMembers, Json.text]

theorem wellSpelled_toJson (h : s.FloatFree) : s.toJson.WellSpelled := by
  obtain ⟨id, values⟩ := s
  have hvalues := Block.wellSpelled_toJson h
  cases id with
  | none => exact .record (List.forall_mem_singleton.2 hvalues)
  | some id =>
    exact .record (List.forall_mem_cons.2 ⟨.text id, List.forall_mem_singleton.2 hvalues⟩)

/-- Where it nests no deeper than there is room for, a state is read back as itself. -/
theorem ofJson?_toJson (h : s.FloatFree) {room : Nat} (hroom : s.toJson.nesting ≤ room) :
    ofJson? room s.toJson = some s := by
  rw [nesting_toJson] at hroom
  obtain ⟨id, values⟩ := s
  have hvalues := Block.ofJson?_toJson h
  have hfits : values.toJson.nesting < room := hroom
  cases id with
  | none =>
    rw [ofJson?, toJson, Json.members?_record (by simp) (by simp)]
    simp [hvalues, hfits]
  | some id =>
    have hid : (Json.text id).toOption? Json.toText? = some (some id) := rfl
    rw [ofJson?, toJson, Json.members?_record (by simp) (by simp)]
    simp [hvalues, hfits, hid]

end DeclaredState
end Reconciler
