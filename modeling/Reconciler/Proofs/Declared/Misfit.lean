import Mathlib.Data.List.Forall2
import Reconciler.Proofs.Declared.Field

/-! What a declared value must be to fit a field, and which value is to blame where one does not:
the first misfit in the order of the fields, and within a list of blocks in the order of its items
and of the fields of an item. -/
namespace Reconciler

section First
variable {α : Type} {good : α → Prop} {bad : Nat → α → Prop} {x : α} {xs : List α}

/-- Some item is bad, and all items before it are good. A bad item is judged with its position. -/
def First (good : α → Prop) (bad : Nat → α → Prop) (xs : List α) : Prop :=
  ∃ before x after, xs = before ++ x :: after ∧ (∀ y ∈ before, good y) ∧ bad before.length x

theorem not_first_nil : ¬First good bad [] := by
  rintro ⟨before, x, after, h, -⟩
  cases before <;> cases h

theorem first_cons : First good bad (x :: xs) ↔
    bad 0 x ∨ good x ∧ First good (fun index => bad (index + 1)) xs := by
  constructor
  · rintro ⟨_ | ⟨y, before⟩, z, after, h, hgood, hbad⟩
    · cases h
      exact .inl hbad
    · cases h
      rw [List.forall_mem_cons] at hgood
      exact .inr ⟨hgood.1, before, z, after, rfl, hgood.2, hbad⟩
  · rintro (hbad | ⟨hx, before, z, after, rfl, hgood, hbad⟩)
    · exact ⟨[], x, xs, rfl, List.forall_mem_nil _, hbad⟩
    · exact ⟨x :: before, z, after, rfl, List.forall_mem_cons.2 ⟨hx, hgood⟩, hbad⟩

/-- Where some item is the first bad one, not all are good. -/
theorem First.not_forall (h : First good bad xs) (hbad : ∀ index x, bad index x → ¬good x) :
    ¬∀ x ∈ xs, good x := by
  obtain ⟨before, x, after, rfl, -, hx⟩ := h
  exact fun hgood => hbad _ x hx (hgood x (by simp))

end First

inductive Form
  | flag
  | text
  | integer
  /-- An integer from zero up to, but not including, a bound. -/
  | natural (size : Nat)
  | list (item : Form)

namespace Form

def typeName : Form → String
  | .flag => "bool"
  | .text => "string"
  | .integer | .natural _ => "int"
  | .list _ => "list"

def zero : Form → Value
  | .flag => .bool false
  | .text => .string ""
  | .integer | .natural _ => .int 0
  | .list _ => .list []

def Fits : Form → Value → Prop
  | .flag, v => ∃ b, v = .bool b
  | .text, v => ∃ s, v = .string s
  | .integer, v => ∃ i, v = .int i
  | .natural size, v => ∃ i, v = .int i ∧ 0 ≤ i.toInt ∧ i.toInt < size
  | .list item, v => ∃ items, v = .list items ∧ ∀ x ∈ items, item.Fits x

/-- A value is to blame as a whole, also for an item of a list. -/
def Blames (form : Form) (place : String) (v : Value) (e : TypeMismatch) : Prop :=
  ¬form.Fits v ∧ e = ⟨place, form.typeName, v.typeName⟩

/-- A static type that reads what fits, calls it by the same name and has the same zero. -/
structure Describes (form : Form) (α : Type) [OfValue α] [ToValue α] : Prop where
  typeName : OfValue.typeName α = form.typeName
  zero : toValue (OfValue.zero : α) = form.zero
  fits_iff (v : Value) : form.Fits v ↔ ∃ x : α, ofValue? v = some x

theorem describes_flag : flag.Describes Bool where
  typeName := rfl
  zero := rfl
  fits_iff v := by cases v <;> simp [Fits, ofValue?]

theorem describes_text : text.Describes String where
  typeName := rfl
  zero := rfl
  fits_iff v := by cases v <;> simp [Fits, ofValue?, Value.asText?]

theorem describes_integer : integer.Describes Int64 where
  typeName := rfl
  zero := rfl
  fits_iff v := by cases v <;> simp [Fits, ofValue?]

theorem exists_toNatBelow?_iff (size : Nat) (v : Value) :
    (∃ n, v.toNatBelow? size = some n) ↔ (natural size).Fits v := by
  cases v with
  | int i =>
    by_cases h : 0 ≤ i.toInt ∧ i.toInt < size <;> simp [Fits, Value.toNatBelow?, h]
  | bool | float | string | list | map => simp [Fits, Value.toNatBelow?]

theorem describes_natural16 : (natural UInt16.size).Describes UInt16 where
  typeName := rfl
  zero := rfl
  fits_iff v := by
    rw [← exists_toNatBelow?_iff, ← Option.isSome_iff_exists, ← Option.isSome_iff_exists]
    simp [ofValue?]

theorem describes_natural32 : (natural UInt32.size).Describes UInt32 where
  typeName := rfl
  zero := rfl
  fits_iff v := by
    rw [← exists_toNatBelow?_iff, ← Option.isSome_iff_exists, ← Option.isSome_iff_exists]
    simp [ofValue?]

theorem exists_mapM_iff {α β : Type} {f : α → Option β} {xs : List α} :
    (∃ ys, xs.mapM f = some ys) ↔ ∀ x ∈ xs, ∃ y, f x = some y := by
  induction xs with
  | nil => simp
  | cons x xs ih =>
    rw [List.forall_mem_cons, ← ih]
    cases hx : f x <;> cases hxs : xs.mapM f <;> simp [hx, hxs]

/-- A list is read if each of its items is. -/
theorem Describes.list {item : Form} {α : Type} [OfValue α] [ToValue α]
    (h : item.Describes α) : (list item).Describes (List α) where
  typeName := rfl
  zero := rfl
  fits_iff v := by
    cases v with
    | list items =>
      change _ ↔ ∃ xs : List α, items.mapM ofValue? = some xs
      rw [exists_mapM_iff]
      simp only [Fits, Value.list.injEq, exists_eq_left', h.fits_iff]
    | bool | int | float | string | map => exact iff_of_false nofun nofun

end Form

section Block

def FitsBlock (fields : List (String × Form)) (block : Block) : Prop :=
  ∀ field ∈ fields, ∀ v ∈ block.get? field.1, field.2.Fits v

/-- The first of the fields whose value does not fit is to blame. -/
def BlamesBlock (fields : List (String × Form)) (place : String) (block : Block)
    (e : TypeMismatch) : Prop :=
  First (fun field => ∀ v ∈ block.get? field.1, field.2.Fits v)
    (fun _ field => ∃ v ∈ block.get? field.1, field.2.Blames (place ++ "." ++ field.1) v e) fields

def filledBlock (fields : List (String × Form)) (block : Block) : Block :=
  .ofList (fields.map fun field => (field.1, (block.get? field.1).getD field.2.zero))

def FitsItem (fields : List (String × Form)) (v : Value) : Prop :=
  ∃ block, v = .map block ∧ FitsBlock fields block

def BlamesItem (fields : List (String × Form)) (place : String) (v : Value)
    (e : TypeMismatch) : Prop :=
  (∀ block, v ≠ .map block) ∧ e = ⟨place, "map", v.typeName⟩ ∨
    ∃ block, v = .map block ∧ BlamesBlock fields place block e

def filledItem (fields : List (String × Form)) : Value → Value
  | .map block => .map (filledBlock fields block)
  | v => v

variable {fields : List (String × Form)} {place : String} {e : TypeMismatch}

@[simp] theorem fitsItem_map {block : Block} :
    FitsItem fields (.map block) ↔ FitsBlock fields block := by
  simp [FitsItem]

@[simp] theorem blamesItem_map {block : Block} :
    BlamesItem fields place (.map block) e ↔ BlamesBlock fields place block e := by
  simp [BlamesItem]

theorem not_fitsItem {v : Value} (h : ∀ block, v ≠ .map block) : ¬FitsItem fields v := by
  rintro ⟨block, rfl, -⟩
  exact h block rfl

theorem blamesItem_iff {v : Value} (h : ∀ block, v ≠ .map block) :
    BlamesItem fields place v e ↔ e = ⟨place, "map", v.typeName⟩ := by
  refine ⟨fun hblames => ?_, fun he => .inl ⟨h, he⟩⟩
  rcases hblames with ⟨-, he⟩ | ⟨block, hv, -⟩
  · exact he
  · exact absurd hv (h block)

/-- A block with a field to blame does not fit. -/
theorem not_fitsBlock_of_blames {block : Block} (h : BlamesBlock fields place block e) :
    ¬FitsBlock fields block := by
  refine First.not_forall h fun _ field hblames hfits => ?_
  obtain ⟨v, hv, hnot, -⟩ := hblames
  exact hnot (hfits v hv)

theorem not_fitsItem_of_blames {v : Value} (h : BlamesItem fields place v e) :
    ¬FitsItem fields v := by
  rintro ⟨block, rfl, hfits⟩
  rcases h with ⟨hnot, -⟩ | ⟨block', hblock, hblames⟩
  · exact hnot block rfl
  · cases hblock
    exact not_fitsBlock_of_blames hblames hfits

end Block

inductive Shape
  | plain (form : Form)
  /-- A list of blocks with these fields. -/
  | blocks (fields : List (String × Form))

namespace Shape

def Fits : Shape → Value → Prop
  | .plain form, v => form.Fits v
  | .blocks fields, v => ∃ items, v = .list items ∧ ∀ x ∈ items, FitsItem fields x

/-- Of a list of blocks the first item that does not fit is to blame, at its position. -/
def Blames : Shape → String → Value → TypeMismatch → Prop
  | .plain form, place, v, e => form.Blames place v e
  | .blocks fields, place, v, e =>
    (∀ items, v ≠ .list items) ∧ e = ⟨place, "list", v.typeName⟩ ∨
      ∃ items, v = .list items ∧ First (FitsItem fields)
        (fun index x => BlamesItem fields (place ++ "." ++ toString index) x e) items

def filled : Shape → Option Value → Value
  | .plain form, v => v.getD form.zero
  | .blocks _, none => .list []
  | .blocks fields, some v =>
    match v with
    | .list items => .list (items.map (filledItem fields))
    | v => v

section Blocks
variable {fields : List (String × Form)} {place : String} {e : TypeMismatch}

@[simp] theorem fits_blocks_list {items : List Value} :
    (blocks fields).Fits (.list items) ↔ ∀ x ∈ items, FitsItem fields x := by
  simp [Fits]

@[simp] theorem blames_blocks_list {items : List Value} :
    (blocks fields).Blames place (.list items) e ↔ First (FitsItem fields)
      (fun index x => BlamesItem fields (place ++ "." ++ toString index) x e) items := by
  simp [Blames]

theorem not_fits_blocks {v : Value} (h : ∀ items, v ≠ .list items) : ¬(blocks fields).Fits v := by
  rintro ⟨items, rfl, -⟩
  exact h items rfl

theorem blames_blocks_iff {v : Value} (h : ∀ items, v ≠ .list items) :
    (blocks fields).Blames place v e ↔ e = ⟨place, "list", v.typeName⟩ := by
  refine ⟨fun hblames => ?_, fun he => .inl ⟨h, he⟩⟩
  rcases hblames with ⟨-, he⟩ | ⟨items, hv, -⟩
  · exact he
  · exact absurd hv (h items)

end Blocks

theorem not_fits_of_blames {shape : Shape} {place : String} {v : Value} {e : TypeMismatch}
    (h : shape.Blames place v e) : ¬shape.Fits v := by
  cases shape with
  | plain form => exact h.1
  | blocks fields =>
    rintro ⟨items, rfl, hfits⟩
    rcases h with ⟨hnot, -⟩ | ⟨items', hitems, hfirst⟩
    · exact hnot items rfl
    · cases hitems
      exact hfirst.not_forall (fun _ _ => not_fitsItem_of_blames) hfits

end Shape
section Bind
variable {ε α β : Type} {x : Except ε α} {f : α → Except ε β}

theorem bind_eq_ok_iff {b : β} : x >>= f = .ok b ↔ ∃ a, x = .ok a ∧ f a = .ok b := by
  refine ⟨exists_of_bind, ?_⟩
  rintro ⟨a, rfl, h⟩
  exact h

theorem bind_eq_error_iff {e : ε} :
    x >>= f = .error e ↔ x = .error e ∨ ∃ a, x = .ok a ∧ f a = .error e := by
  constructor
  · intro h
    cases x with
    | error e' =>
      cases h
      exact .inl rfl
    | ok a => exact .inr ⟨a, rfl, h⟩
  · rintro (rfl | ⟨a, rfl, h⟩)
    · rfl
    · exact h

/-- With nothing behind it that can fail, a computation succeeds and fails by itself. -/
theorem exists_bind_pure_iff {g : α → β} :
    (∃ b, (x >>= fun a => pure (g a)) = .ok b) ↔ ∃ a, x = .ok a := by
  constructor
  · rintro ⟨b, hb⟩
    obtain ⟨a, ha, -⟩ := exists_of_bind hb
    exact ⟨a, ha⟩
  · rintro ⟨a, rfl⟩
    exact ⟨g a, rfl⟩

theorem bind_pure_eq_error_iff {g : α → β} {e : ε} :
    (x >>= fun a => pure (g a)) = .error e ↔ x = .error e := by
  refine bind_eq_error_iff.trans (or_iff_left ?_)
  rintro ⟨a, -, hok⟩
  cases hok

end Bind

theorem toValue_injective {α : Type} [OfValue α] [ToValue α] [ExactConversion α] :
    Function.Injective (toValue : α → Value) := by
  intro x y h
  have hread := congrArg (ofValue? (α := α)) h
  rw [ExactConversion.ofValue?_toValue, ExactConversion.ofValue?_toValue] at hread
  exact Option.some.inj hread

namespace Reading
variable {α : Type} {r : Reading} {key : String} {e : TypeMismatch}

section Get
variable [OfValue α] [ToValue α] {form : Form}

/-- A value that does not fit is reported under its full key. -/
theorem get_eq_error_iff (h : form.Describes α) : r.get α key = .error e ↔
    ∃ v ∈ r.block.get? key, form.Blames (r.qualified key) v e := by
  unfold get Form.Blames
  cases r.block.get? key with
  | none => exact iff_of_false nofun nofun
  | some v =>
    simp only [Option.mem_def, Option.some.injEq, exists_eq_left', h.fits_iff, ← h.typeName]
    cases ofValue? (α := α) v with
    | some x => exact iff_of_false nofun fun hbad => hbad.1 ⟨x, rfl⟩
    | none => simp [eq_comm]

/-- What is read would be stored as what was found, or as the zero where nothing was. -/
theorem get_eq_ok_iff [ExactConversion α] (h : form.Describes α) {x : α} : r.get α key = .ok x ↔
    (∀ v ∈ r.block.get? key, form.Fits v) ∧ toValue x = (r.block.get? key).getD form.zero := by
  unfold get
  cases r.block.get? key with
  | none =>
    rw [Option.getD_none, ← h.zero, toValue_injective.eq_iff, Except.ok.injEq, eq_comm]
    exact (and_iff_right nofun).symm
  | some v =>
    simp only [Option.mem_def, Option.some.injEq, forall_eq', Option.getD_some]
    constructor
    · intro hread
      split at hread
      · next y hy =>
        cases hread
        exact ⟨(h.fits_iff v).2 ⟨x, hy⟩, (ExactConversion.eq_toValue hy).symm⟩
      · cases hread
    · rintro ⟨-, rfl⟩
      rw [ExactConversion.ofValue?_toValue]

theorem exists_get_iff (h : form.Describes α) :
    (∃ x, r.get α key = .ok x) ↔ ∀ v ∈ r.block.get? key, form.Fits v := by
  constructor
  · rintro ⟨x, hx⟩ v hv
    by_contra hnot
    rw [(get_eq_error_iff h).2 ⟨v, hv, hnot, rfl⟩] at hx
    cases hx
  · intro hfits
    cases hread : r.get α key with
    | ok x => exact ⟨x, rfl⟩
    | error e =>
      obtain ⟨v, hv, hnot, -⟩ := (get_eq_error_iff h).1 hread
      exact absurd (hfits v hv) hnot

end Get

/-- A reading of blocks with some fields, item by item, and the way back. -/
structure ReadsBlock (read : Reading → Except TypeMismatch α) (write : α → Block)
    (fields : List (String × Form)) : Prop where
  ok_iff (block : Block) (path : String) (x : α) : read (.nested block path) = .ok x ↔
    FitsBlock fields block ∧ write x = filledBlock fields block
  error_iff (block : Block) (path : String) (e : TypeMismatch) :
    read (.nested block path) = .error e ↔ BlamesBlock fields path block e

theorem items_of_no_map {read : Reading → Except TypeMismatch α} {path : String} {index : Nat}
    {v : Value} (hv : ∀ block, v ≠ .map block) (values : List Value) :
    items path read index (v :: values) =
      .error ⟨path ++ "." ++ toString index, "map", v.typeName⟩ := by
  cases v with
  | map block => exact absurd rfl (hv block)
  | bool | int | float | string | list => rfl

section Get?
variable {read : Reading → Except TypeMismatch α}

theorem blocks_of_none (hget : r.block.get? key = none) : r.blocks key read = .ok [] := by
  simp only [blocks, hget]

theorem blocks_of_list {values : List Value} (hget : r.block.get? key = some (.list values)) :
    r.blocks key read = items (r.qualified key) read 0 values := by
  simp only [blocks, hget]

theorem blocks_of_no_list {v : Value} (hget : r.block.get? key = some v)
    (hv : ∀ values, v ≠ .list values) :
    r.blocks key read = .error ⟨r.qualified key, "list", v.typeName⟩ := by
  cases v with
  | list values => exact absurd rfl (hv values)
  | bool | int | float | string | map => simp only [blocks, hget]

end Get?

section Blocks
variable {read : Reading → Except TypeMismatch α} {write : α → Block}
  {fields : List (String × Form)} (h : ReadsBlock read write fields)
include h

theorem ReadsBlock.exists_ok_iff {block : Block} {path : String} :
    (∃ x, read (.nested block path) = .ok x) ↔ FitsBlock fields block := by
  refine ⟨fun ⟨x, hx⟩ => ((h.ok_iff block path x).1 hx).1, fun hfits => ?_⟩
  cases hread : read (.nested block path) with
  | ok x => exact ⟨x, rfl⟩
  | error e => exact absurd hfits (not_fitsBlock_of_blames ((h.error_iff block path e).1 hread))

/-- The first item that does not fit is reported, with its position. -/
theorem items_eq_error_iff {path : String} {index : Nat} {values : List Value} :
    items path read index values = .error e ↔ First (FitsItem fields)
      (fun i x => BlamesItem fields (path ++ "." ++ toString (index + i)) x e) values := by
  induction values generalizing index with
  | nil => exact iff_of_false nofun not_first_nil
  | cons v values ih =>
    have hshift : (fun i x => BlamesItem fields (path ++ "." ++ toString (index + (i + 1))) x e) =
        fun i x => BlamesItem fields (path ++ "." ++ toString (index + 1 + i)) x e := by
      funext i x
      rw [Nat.add_assoc, Nat.add_comm 1 i]
    rw [first_cons, hshift, ← ih, Nat.add_zero]
    by_cases hv : ∃ block, v = .map block
    · obtain ⟨block, rfl⟩ := hv
      rw [items, bind_eq_error_iff, h.error_iff, blamesItem_map, fitsItem_map]
      simp only [bind_pure_eq_error_iff, exists_and_right, h.exists_ok_iff]
    · rw [not_exists] at hv
      rw [items_of_no_map hv, blamesItem_iff hv, Except.error.injEq, eq_comm]
      exact (or_iff_left fun hfits => not_fitsItem hv hfits.1).symm

/-- Items are read just if all of them fit, each as what is found under its names. -/
theorem items_eq_ok_iff {path : String} {index : Nat} {values : List Value} {xs : List α} :
    items path read index values = .ok xs ↔ (∀ v ∈ values, FitsItem fields v) ∧
      (xs.map write).map toValue = values.map (filledItem fields) := by
  induction values generalizing index xs with
  | nil =>
    rw [items, Except.ok.injEq, List.map_nil, List.map_eq_nil_iff, List.map_eq_nil_iff, eq_comm]
    exact (and_iff_right (List.forall_mem_nil _)).symm
  | cons v values ih =>
    rw [List.forall_mem_cons]
    by_cases hv : ∃ block, v = .map block
    · obtain ⟨block, rfl⟩ := hv
      rw [items, bind_eq_ok_iff, fitsItem_map]
      simp only [bind_eq_ok_iff, h.ok_iff, ih]
      constructor
      · rintro ⟨x, ⟨hfits, hx⟩, ys, ⟨hrest, hys⟩, hxs⟩
        cases hxs
        refine ⟨⟨hfits, hrest⟩, ?_⟩
        rw [List.map_cons, List.map_cons, hx, hys]
        rfl
      · rintro ⟨⟨hfits, hrest⟩, hxs⟩
        cases xs with
        | nil => cases hxs
        | cons x ys =>
          obtain ⟨hx, hys⟩ := List.cons.inj hxs
          exact ⟨x, ⟨hfits, Value.map.inj hx⟩, ys, ⟨hrest, hys⟩, rfl⟩
    · rw [not_exists] at hv
      rw [items_of_no_map hv]
      refine iff_of_false ?_ fun hfits => not_fitsItem hv hfits.1.1
      intro hread
      cases hread

/-- What is not a list of blocks that fit is reported. -/
theorem blocks_eq_error_iff : r.blocks key read = .error e ↔
    ∃ v ∈ r.block.get? key, (Shape.blocks fields).Blames (r.qualified key) v e := by
  cases hget : r.block.get? key with
  | none =>
    rw [blocks_of_none hget]
    exact iff_of_false nofun nofun
  | some v =>
    simp only [Option.mem_def, Option.some.injEq, exists_eq_left']
    by_cases hv : ∃ values, v = .list values
    · obtain ⟨values, rfl⟩ := hv
      simp only [blocks_of_list hget, items_eq_error_iff h, Shape.blames_blocks_list, Nat.zero_add]
    · rw [not_exists] at hv
      rw [blocks_of_no_list hget hv, Shape.blames_blocks_iff hv, Except.error.injEq, eq_comm]

theorem blocks_eq_ok_iff {xs : List α} : r.blocks key read = .ok xs ↔
    (∀ v ∈ r.block.get? key, (Shape.blocks fields).Fits v) ∧
      toValue (xs.map write) = (Shape.blocks fields).filled (r.block.get? key) := by
  cases hget : r.block.get? key with
  | none =>
    rw [blocks_of_none hget, Except.ok.injEq, eq_comm, ← List.map_eq_nil_iff (f := write),
      ← List.map_eq_nil_iff (f := toValue)]
    exact (Iff.of_eq (Value.list.injEq ..).symm).trans (and_iff_right nofun).symm
  | some v =>
    simp only [Option.mem_def, Option.some.injEq, forall_eq']
    by_cases hv : ∃ values, v = .list values
    · obtain ⟨values, rfl⟩ := hv
      rw [blocks_of_list hget, items_eq_ok_iff h, Shape.fits_blocks_list]
      exact and_congr_right' (.of_eq (Value.list.injEq ..).symm)
    · rw [not_exists] at hv
      rw [blocks_of_no_list hget hv]
      exact iff_of_false nofun fun hfits => Shape.not_fits_blocks hv hfits.1

end Blocks
end Reading

namespace Field
variable {R : Type}

/-- A field that reads what has a shape, and says of all else what is to blame. -/
structure Follows (f : Field R) (shape : Shape) : Prop where
  ok_iff (s : DeclaredState) (x : f.Carrier) : f.read (.ofState s) = .ok x ↔
    (∀ v ∈ s.get? f.key, shape.Fits v) ∧ f.write x = shape.filled (s.get? f.key)
  error_iff (s : DeclaredState) (e : TypeMismatch) :
    f.read (.ofState s) = .error e ↔ ∃ v ∈ s.get? f.key, shape.Blames f.key v e

theorem follows_plain {α : Type} [OfValue α] [ToValue α] [ExactConversion α] {form : Form}
    (h : form.Describes α) {key : String} {get : R → α} {set : R → α → R} :
    (plain key get set).Follows (.plain form) where
  ok_iff _ _ := Reading.get_eq_ok_iff h
  error_iff _ _ := Reading.get_eq_error_iff h

theorem follows_blocks {α : Type} {read : Reading → Except TypeMismatch α} {write : α → Block}
    {fields : List (String × Form)} (h : Reading.ReadsBlock read write fields) {key : String}
    {get : R → List α} {set : R → List α → R} :
    (blocks key read write get set).Follows (.blocks fields) where
  ok_iff _ _ := Reading.blocks_eq_ok_iff h
  error_iff _ _ := Reading.blocks_eq_error_iff h

theorem Follows.exists_ok_iff {f : Field R} {shape : Shape} (h : f.Follows shape)
    (s : DeclaredState) :
    (∃ x, f.read (.ofState s) = .ok x) ↔ ∀ v ∈ s.get? f.key, shape.Fits v := by
  refine ⟨fun ⟨x, hx⟩ => ((h.ok_iff s x).1 hx).1, fun hfits => ?_⟩
  cases hread : f.read (.ofState s) with
  | ok x => exact ⟨x, rfl⟩
  | error e =>
    obtain ⟨v, hv, hblames⟩ := (h.error_iff s e).1 hread
    exact absurd (hfits v hv) (Shape.not_fits_of_blames hblames)

end Field

section LoadAll
variable {R : Type} {fields : List (Field R)} {shapes : List (String × Shape)} {blank : R}

def Follow (fields : List (Field R)) (shapes : List (String × Shape)) : Prop :=
  List.Forall₂ (fun f entry => f.key = entry.1 ∧ f.Follows entry.2) fields shapes

def FitsState (shapes : List (String × Shape)) (s : DeclaredState) : Prop :=
  ∀ entry ∈ shapes, ∀ v ∈ s.get? entry.1, entry.2.Fits v

/-- The first of the declared keys whose value does not have its shape is to blame. -/
def BlamesState (shapes : List (String × Shape)) (s : DeclaredState) (e : TypeMismatch) : Prop :=
  First (fun entry => ∀ v ∈ s.get? entry.1, entry.2.Fits v)
    (fun _ entry => ∃ v ∈ s.get? entry.1, entry.2.Blames entry.1 v e) shapes

theorem not_fitsState_of_blames {s : DeclaredState} {e : TypeMismatch}
    (h : BlamesState shapes s e) : ¬FitsState shapes s := by
  refine First.not_forall h fun _ entry hblames hfits => ?_
  obtain ⟨v, hv, hbad⟩ := hblames
  exact Shape.not_fits_of_blames hbad (hfits v hv)

/-- A state that does not fit is reported by the first of its fields that does not. -/
theorem loadAll_eq_error_iff (h : Follow fields shapes) {s : DeclaredState}
    {e : TypeMismatch} : loadAll fields blank s = .error e ↔ BlamesState shapes s e := by
  unfold BlamesState
  induction h generalizing blank with
  | nil =>
    refine iff_of_false ?_ not_first_nil
    intro hread
    cases hread
  | @cons f entry fields shapes hf _ ih =>
    obtain ⟨key, shape⟩ := entry
    obtain ⟨rfl, hf⟩ := hf
    have hload : (∃ b, f.load (.ofState s) blank = .ok b) ↔ ∃ x, f.read (.ofState s) = .ok x :=
      exists_bind_pure_iff
    have hfail : f.load (.ofState s) blank = .error e ↔ f.read (.ofState s) = .error e :=
      bind_pure_eq_error_iff
    rw [first_cons, ← hf.exists_ok_iff, ← hload, ← exists_and_right, loadAll, List.foldlM_cons,
      bind_eq_error_iff, hfail, hf.error_iff]
    -- what is to blame among the other fields does not depend on what has been filled in
    exact or_congr_right (exists_congr fun b => and_congr_right' ih)

/-- A record comes out of a state exactly when all values there fit and it stores the same ones,
and zeros where there are none. -/
theorem loadAll_eq_ok_iff_filled (hl : LawfulFields fields blank) (h : Follow fields shapes)
    {s : DeclaredState} {r : R} : loadAll fields blank s = .ok r ↔ FitsState shapes s ∧
      fields.map (fun f => (f.key, f.store r)) =
        shapes.map fun entry => (entry.1, entry.2.filled (s.get? entry.1)) := by
  rw [loadAll_eq_ok_iff hl]
  clear hl
  induction h with
  | nil => exact iff_of_true (List.forall_mem_nil _) ⟨List.forall_mem_nil _, rfl⟩
  | @cons f entry fields shapes hf _ ih =>
    obtain ⟨key, shape⟩ := entry
    obtain ⟨rfl, hf⟩ := hf
    unfold FitsState at ih ⊢
    rw [List.forall_mem_cons, List.forall_mem_cons, List.map_cons, List.map_cons, List.cons.injEq,
      hf.ok_iff, ih]
    simp only [Field.store, Prod.mk.injEq, true_and, and_assoc, and_left_comm]

/-- A state yields a record just if each of its keys holds what it should. -/
theorem exists_loadAll_iff (hl : LawfulFields fields blank) (h : Follow fields shapes)
    {s : DeclaredState} : (∃ r, loadAll fields blank s = .ok r) ↔ FitsState shapes s := by
  refine ⟨fun ⟨r, hr⟩ => ((loadAll_eq_ok_iff_filled hl h).1 hr).1, fun hfits => ?_⟩
  cases hs : loadAll fields blank s with
  | ok r => exact ⟨r, rfl⟩
  | error e => exact absurd hfits (not_fitsState_of_blames ((loadAll_eq_error_iff h).1 hs))

end LoadAll
end Reconciler
