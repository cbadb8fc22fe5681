import Reconciler.Declared.Value

/-! Between declared values and the static types of a record's fields. -/
namespace Reconciler

/-- A static type that some declared values fit. `typeName` is what a mismatch says was expected,
and `zero` what an absent key stands for. -/
class OfValue (α : Type) where
  typeName : String
  zero : α
  ofValue? : Value → Option α

class ToValue (α : Type) where
  toValue : α → Value

export OfValue (ofValue?)
export ToValue (toValue)

instance : OfValue Bool where
  typeName := "bool"
  zero := false
  ofValue?
    | .bool b => some b
    | _ => none

instance : ToValue Bool := ⟨.bool⟩

instance : OfValue Int64 where
  typeName := "int"
  zero := 0
  ofValue?
    | .int i => some i
    | _ => none

instance : ToValue Int64 := ⟨.int⟩

def Value.toNatBelow? (size : Nat) : Value → Option Nat
  | .int i => if 0 ≤ i.toInt ∧ i.toInt < size then some i.toInt.toNat else none
  | _ => none

instance : OfValue UInt16 where
  typeName := "int"
  zero := 0
  ofValue? v := (v.toNatBelow? UInt16.size).map .ofNat

instance : ToValue UInt16 := ⟨fun n => .int (.ofNat n.toNat)⟩

instance : OfValue UInt32 where
  typeName := "int"
  zero := 0
  ofValue? v := (v.toNatBelow? UInt32.size).map .ofNat

instance : ToValue UInt32 := ⟨fun n => .int (.ofNat n.toNat)⟩

instance : OfValue UInt64 where
  typeName := "int"
  zero := 0
  ofValue? v := (v.toNatBelow? UInt64.size).map .ofNat

/-- Integers fit too, as the nearest double. -/
instance : OfValue Binary64 where
  typeName := "float"
  zero := .zero false
  ofValue?
    | .float x => some x
    | .int i => Binary64.ofInt? i.toInt
    | _ => none

instance : ToValue Binary64 := ⟨.float⟩

instance : OfValue String where
  typeName := "string"
  zero := ""
  ofValue? := Value.asText?

instance : ToValue String := ⟨.string⟩

instance : OfValue Block where
  typeName := "map"
  zero := OrderedMap.empty
  ofValue?
    | .map block => some block
    | _ => none

instance : ToValue Block := ⟨.map⟩

instance {α : Type} [OfValue α] : OfValue (List α) where
  typeName := "list"
  zero := []
  ofValue?
    | .list items => items.mapM ofValue?
    | _ => none

instance {α : Type} [ToValue α] : ToValue (List α) := ⟨fun items => .list (items.map toValue)⟩

end Reconciler
