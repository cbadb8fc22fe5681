import Reconciler.Declared.Conversion

/-! Storing a typed value and reading it back are exact partial inverses. -/
namespace Reconciler

/-- Every value of the type is stored, and nothing else reads as one. -/
class ExactConversion (α : Type) [OfValue α] [ToValue α] : Prop where
  ofValue?_toValue (x : α) : ofValue? (toValue x) = some x
  eq_toValue {v : Value} {x : α} (h : ofValue? v = some x) : v = toValue x

attribute [simp] ExactConversion.ofValue?_toValue

instance : ExactConversion Bool where
  ofValue?_toValue _ := rfl
  eq_toValue {v x} h := by
    cases v with
    | bool b => exact congrArg Value.bool (Option.some.inj h)
    | _ => cases h

instance : ExactConversion Int64 where
  ofValue?_toValue _ := rfl
  eq_toValue {v x} h := by
    cases v with
    | int i => exact congrArg Value.int (Option.some.inj h)
    | _ => cases h

instance : ExactConversion String where
  ofValue?_toValue _ := rfl
  eq_toValue {v x} h := by
    cases v with
    | string s => exact congrArg Value.string (Option.some.inj h)
    | _ => cases h

instance : ExactConversion Block where
  ofValue?_toValue _ := rfl
  eq_toValue {v x} h := by
    cases v with
    | map block => exact congrArg Value.map (Option.some.inj h)
    | _ => cases h

namespace Value

theorem toNatBelow?_int_ofNat {size n : Nat} (h : n < size) (small : size ≤ 0x8000000000000000) :
    (Value.int (.ofNat n)).toNatBelow? size = some n := by
  have hn : (Int64.ofNat n).toInt = n := Int64.toInt_ofNat_of_lt (by omega)
  simp [toNatBelow?, hn, h]

theorem eq_int_of_toNatBelow? {size n : Nat} {v : Value} (h : v.toNatBelow? size = some n) :
    v = .int (.ofNat n) ∧ n < size := by
  cases v with
  | int i =>
    simp only [toNatBelow?, Option.ite_none_right_eq_some, Option.some.injEq] at h
    obtain ⟨⟨low, high⟩, rfl⟩ := h
    refine ⟨?_, by omega⟩
    rw [← Int64.ofInt_eq_ofNat, Int.toNat_of_nonneg low, Int64.ofInt_toInt]
  | _ => cases h

end Value

instance : ExactConversion UInt16 where
  ofValue?_toValue x := by
    simp [ofValue?, toValue, Value.toNatBelow?_int_ofNat x.toNat_lt (by decide)]
  eq_toValue {v x} h := by
    obtain ⟨n, hn, rfl⟩ := Option.map_eq_some_iff.1 h
    obtain ⟨rfl, small⟩ := Value.eq_int_of_toNatBelow? hn
    exact congrArg (fun n => Value.int (.ofNat n)) (UInt16.toNat_ofNat_of_lt small).symm

instance : ExactConversion UInt32 where
  ofValue?_toValue x := by
    simp [ofValue?, toValue, Value.toNatBelow?_int_ofNat x.toNat_lt (by decide)]
  eq_toValue {v x} h := by
    obtain ⟨n, hn, rfl⟩ := Option.map_eq_some_iff.1 h
    obtain ⟨rfl, small⟩ := Value.eq_int_of_toNatBelow? hn
    exact congrArg (fun n => Value.int (.ofNat n)) (UInt32.toNat_ofNat_of_lt small).symm

section List
variable {α : Type} [OfValue α] [ToValue α] [ExactConversion α]

/-- A list is read back from what it is stored as. -/
theorem mapM_ofValue?_map_toValue (xs : List α) :
    (xs.map toValue).mapM ofValue? = some xs := by
  induction xs with
  | nil => rfl
  | cons x xs ih => simp [ih]

theorem eq_map_toValue_of_mapM {vs : List Value} {xs : List α}
    (h : vs.mapM ofValue? = some xs) : vs = xs.map toValue := by
  induction vs generalizing xs with
  | nil =>
    cases Option.some.inj h
    rfl
  | cons v vs ih =>
    rw [List.mapM_cons] at h
    obtain ⟨x, hx, h⟩ := Option.bind_eq_some_iff.1 h
    obtain ⟨rest, hrest, h⟩ := Option.bind_eq_some_iff.1 h
    cases Option.some.inj h
    rw [ExactConversion.eq_toValue hx, ih hrest, List.map_cons]

instance : ExactConversion (List α) where
  ofValue?_toValue xs := mapM_ofValue?_map_toValue xs
  eq_toValue {v xs} h := by
    cases v with
    | list items => exact congrArg Value.list (eq_map_toValue_of_mapM h)
    | _ => cases h

end List
end Reconciler
