import Reconciler.Proofs.Declared.Misfit

/-! The static types that are both stored and read: flags, integers of some widths, texts, blocks,
and lists of any of these, nested to any depth. Storing and reading are inverse on each of them, and
what can be read is known by its shape. -/
namespace Reconciler

inductive StaticType
  | bool
  | int64
  | uint32
  | uint16
  | string
  | block
  | list (item : StaticType)

namespace StaticType

def Carrier : StaticType → Type
  | .bool => Bool
  | .int64 => Int64
  | .uint32 => UInt32
  | .uint16 => UInt16
  | .string => String
  | .block => Block
  | .list item => List item.Carrier

instance instOfValue : (t : StaticType) → OfValue t.Carrier
  | .bool => inferInstanceAs (OfValue Bool)
  | .int64 => inferInstanceAs (OfValue Int64)
  | .uint32 => inferInstanceAs (OfValue UInt32)
  | .uint16 => inferInstanceAs (OfValue UInt16)
  | .string => inferInstanceAs (OfValue String)
  | .block => inferInstanceAs (OfValue Block)
  | .list item =>
    have := instOfValue item
    inferInstanceAs (OfValue (List item.Carrier))

instance instToValue : (t : StaticType) → ToValue t.Carrier
  | .bool => inferInstanceAs (ToValue Bool)
  | .int64 => inferInstanceAs (ToValue Int64)
  | .uint32 => inferInstanceAs (ToValue UInt32)
  | .uint16 => inferInstanceAs (ToValue UInt16)
  | .string => inferInstanceAs (ToValue String)
  | .block => inferInstanceAs (ToValue Block)
  | .list item =>
    have := instToValue item
    inferInstanceAs (ToValue (List item.Carrier))

instance instExactConversion : (t : StaticType) → ExactConversion t.Carrier
  | .bool => inferInstanceAs (ExactConversion Bool)
  | .int64 => inferInstanceAs (ExactConversion Int64)
  | .uint32 => inferInstanceAs (ExactConversion UInt32)
  | .uint16 => inferInstanceAs (ExactConversion UInt16)
  | .string => inferInstanceAs (ExactConversion String)
  | .block => inferInstanceAs (ExactConversion Block)
  | .list item =>
    have := instExactConversion item
    inferInstanceAs (ExactConversion (List item.Carrier))

/-- The values that can be read at a static type. -/
def Fits : StaticType → Value → Prop
  | .bool, v => ∃ b, v = .bool b
  | .int64, v => ∃ i, v = .int i
  | .uint32, v => ∃ i, v = .int i ∧ 0 ≤ i.toInt ∧ i.toInt < 0x100000000
  | .uint16, v => ∃ i, v = .int i ∧ 0 ≤ i.toInt ∧ i.toInt < 0x10000
  | .string, v => ∃ s, v = .string s
  | .block, v => ∃ block, v = .map block
  | .list item, v => ∃ items, v = .list items ∧ ∀ x ∈ items, item.Fits x

theorem fits_iff (t : StaticType) (v : Value) :
    t.Fits v ↔ ∃ x : t.Carrier, ofValue? v = some x := by
  induction t generalizing v with
  | bool => exact Form.describes_flag.fits_iff v
  | int64 => exact Form.describes_integer.fits_iff v
  | uint32 => exact Form.describes_natural32.fits_iff v
  | uint16 => exact Form.describes_natural16.fits_iff v
  | string => exact Form.describes_text.fits_iff v
  | block =>
    refine exists_congr fun block => ⟨fun h => h ▸ rfl, fun h => ?_⟩
    exact ExactConversion.eq_toValue (α := Block) h
  | list item ih =>
    cases v with
    | list items =>
      refine Iff.trans ?_ Form.exists_mapM_iff.symm
      simp only [Fits, Value.list.injEq, exists_eq_left', ih]
    | bool | int | float | string | map => exact iff_of_false nofun nofun

/-- A value that can be read at a type is called by the name of the type. -/
theorem typeName_of_fits {t : StaticType} {v : Value} (h : t.Fits v) :
    v.typeName = OfValue.typeName t.Carrier := by
  cases t with
  | bool | int64 | string | block =>
    obtain ⟨_, rfl⟩ := h
    rfl
  | uint32 | uint16 | list =>
    obtain ⟨_, rfl, _⟩ := h
    rfl

end StaticType

/-- Reading a list reads its items one by one. -/
theorem ofValue?_list_eq_some_iff {α : Type} [OfValue α] {items : List Value} {xs : List α} :
    ofValue? (.list items) = some xs ↔ List.Forall₂ (fun v x => ofValue? v = some x) items xs := by
  change items.mapM ofValue? = some xs ↔ _
  induction items generalizing xs with
  | nil => cases xs <;> simp
  | cons v items ih =>
    rw [List.mapM_cons, List.forall₂_cons_left_iff]
    simp only [Option.bind_eq_bind, Option.pure_def, Option.bind_eq_some_iff, Option.some.injEq, ih,
      exists_and_left, eq_comm (b := xs)]

/-- Storing and reading are exact partial inverses at every static type. -/
theorem StaticType.conversion_exact (t : StaticType) :
    (∀ x : t.Carrier, ofValue? (toValue x) = some x) ∧
    (∀ (v : Value) (x : t.Carrier), ofValue? v = some x → toValue x = v) ∧
    (∀ v : Value, (∃ x : t.Carrier, ofValue? v = some x) ↔ t.Fits v) ∧
    (∀ (v : Value) (x : t.Carrier), ofValue? v = some x →
      v.typeName = OfValue.typeName t.Carrier) ∧
    ∀ (items : List Value) (xs : (StaticType.list t).Carrier), ofValue? (.list items) = some xs ↔
      List.Forall₂ (fun v (x : t.Carrier) => ofValue? v = some x) items xs := by
  refine ⟨ExactConversion.ofValue?_toValue, fun v x h => (ExactConversion.eq_toValue h).symm,
    fun v => (t.fits_iff v).symm, fun v x h => ?_, fun items xs => ofValue?_list_eq_some_iff⟩
  exact typeName_of_fits ((t.fits_iff v).2 ⟨x, h⟩)

end Reconciler
