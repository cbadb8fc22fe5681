import Reconciler.Declared.Reading
import Reconciler.Proofs.Declared.Conversion

/-! Records as lists of fields, each under a key: what they read out of a declared state, and what
they leave of one that they write to. -/
namespace Reconciler

theorem exists_of_bind {ε α β : Type} {x : Except ε α} {f : α → Except ε β} {b : β}
    (h : x >>= f = .ok b) : ∃ a, x = .ok a ∧ f a = .ok b := by
  cases x with
  | error e => cases h
  | ok a => exact ⟨a, rfl, h⟩

namespace DeclaredState

/-- Writing under one key leaves all others alone. -/
@[simp] theorem get?_set (s : DeclaredState) (key : String) (v : Value) (x : String) :
    (s.set key v).get? x = if x = key then some v else s.get? x :=
  OrderedMap.get?_insert s.values key v x

@[simp] theorem get?_setId (s : DeclaredState) (id x : String) :
    (s.setId id).get? x = s.get? x := rfl

@[simp] theorem get?_clearId (s : DeclaredState) (x : String) : s.clearId.get? x = s.get? x := rfl

@[simp] theorem id_set (s : DeclaredState) (key : String) (v : Value) :
    (s.set key v).id = s.id := rfl

@[simp] theorem id_setId (s : DeclaredState) (id : String) : (s.setId id).id = some id := rfl

@[simp] theorem id_clearId (s : DeclaredState) : s.clearId.id = none := rfl

/-- A state is its identity and what it answers under each key. -/
theorem ext_get? {s t : DeclaredState} (hid : s.id = t.id) (h : ∀ x, s.get? x = t.get? x) :
    s = t := by
  cases s
  cases t
  cases hid
  exact congrArg _ (Ascending.ext_get? _ _ h)

theorem set_eq_self_iff {s : DeclaredState} {key : String} {v : Value} :
    s.set key v = s ↔ s.get? key = some v := by
  constructor
  · intro h
    rw [← h, get?_set, if_pos rfl]
  · intro h
    refine ext_get? rfl fun x => ?_
    rw [get?_set]
    split
    · next hx => rw [hx, h]
    · rfl

end DeclaredState

theorem Reading.get_ofState (α : Type) [OfValue α] (s : DeclaredState) (key : String) :
    (ofState s).get α key =
      match s.get? key with
      | none => .ok OfValue.zero
      | some v =>
        match ofValue? v with
        | some x => .ok x
        | none => .error ⟨key, OfValue.typeName α, v.typeName⟩ := rfl

theorem Reading.get_of_get? {α : Type} [OfValue α] [ToValue α] [ExactConversion α]
    {s : DeclaredState} {key : String} {x : α} (h : s.get? key = some (toValue x)) :
    (ofState s).get α key = .ok x := by
  simp [get_ofState, h]

/-- A value that reads at an exact type is the one stored for what it reads as. -/
theorem Reading.get?_block_of_get {α : Type} [OfValue α] [ToValue α] [ExactConversion α]
    {r : Reading} {key : String} {x : α} (h : r.get α key = .ok x) :
    r.block.get? key = some (toValue x) ∨ r.block.get? key = none ∧ x = OfValue.zero := by
  unfold Reading.get at h
  cases hr : r.block.get? key with
  | none =>
    rw [hr] at h
    exact .inr ⟨rfl, (Except.ok.inj h).symm⟩
  | some v =>
    rw [hr] at h
    dsimp only at h
    split at h
    · next y hy =>
      cases Except.ok.inj h
      exact .inl (congrArg some (ExactConversion.eq_toValue hy))
    · cases h

theorem Reading.get?_of_get {α : Type} [OfValue α] [ToValue α] [ExactConversion α]
    {s : DeclaredState} {key : String} {x : α} (h : (ofState s).get α key = .ok x) :
    s.get? key = some (toValue x) ∨ s.get? key = none ∧ x = OfValue.zero :=
  get?_block_of_get h

/-- A field of the records `R`: the key it is declared under, how it is read and written there,
and where it sits in a record. -/
structure Field (R : Type) where
  key : String
  Carrier : Type
  read : Reading → Except TypeMismatch Carrier
  write : Carrier → Value
  get : R → Carrier
  set : R → Carrier → R

namespace Field
variable {R : Type}

def plain {α : Type} [OfValue α] [ToValue α] (key : String) (get : R → α) (set : R → α → R) :
    Field R :=
  ⟨key, α, fun r => r.get α key, toValue, get, set⟩

def blocks {α : Type} (key : String) (read : Reading → Except TypeMismatch α)
    (write : α → Block) (get : R → List α) (set : R → List α → R) : Field R :=
  ⟨key, List α, fun r => r.blocks key read, fun xs => toValue (xs.map write), get, set⟩

def load (f : Field R) (source : Reading) (record : R) : Except TypeMismatch R := do
  return f.set record (← f.read source)

def store (f : Field R) (record : R) : Value := f.write (f.get record)

/-- A field reads back what it writes, and reads by the value under its key alone. -/
structure Faithful (f : Field R) : Prop where
  read_write (s : DeclaredState) (x : f.Carrier) (h : s.get? f.key = some (f.write x)) :
    f.read (.ofState s) = .ok x
  read_congr (s t : DeclaredState) (h : s.get? f.key = t.get? f.key) :
    f.read (.ofState s) = f.read (.ofState t)

/-- A field of an exact type is faithful. -/
theorem faithful_plain {α : Type} [OfValue α] [ToValue α] [ExactConversion α] {key : String}
    {get : R → α} {set : R → α → R} : (plain key get set).Faithful where
  read_write _ _ hx := Reading.get_of_get? hx
  read_congr s t hst := by
    change s.get? key = t.get? key at hst
    change (Reading.ofState s).get α key = (Reading.ofState t).get α key
    rw [Reading.get_ofState, Reading.get_ofState, hst]

theorem items_map_write {α : Type} {read : Reading → Except TypeMismatch α} {write : α → Block}
    (h : ∀ x path, read (.nested (write x) path) = .ok x) (path : String) (index : Nat)
    (xs : List α) : Reading.items path read index ((xs.map write).map .map) = .ok xs := by
  induction xs generalizing index with
  | nil => rfl
  | cons x xs ih =>
    simp only [List.map_cons, Reading.items, h, ih]
    rfl

/-- A field of blocks is faithful if each block is read back. -/
theorem faithful_blocks {α : Type} {key : String} {read : Reading → Except TypeMismatch α}
    {write : α → Block} {get : R → List α} {set : R → List α → R}
    (h : ∀ x path, read (.nested (write x) path) = .ok x) :
    (blocks key read write get set).Faithful where
  read_write s xs hs := by
    change s.values.get? key = some (toValue (xs.map write)) at hs
    change (Reading.ofState s).blocks key read = .ok xs
    simp only [Reading.blocks, Reading.ofState, hs, toValue]
    exact items_map_write h key 0 xs
  read_congr s t hst := by
    change s.values.get? key = t.values.get? key at hst
    change (Reading.ofState s).blocks key read = (Reading.ofState t).blocks key read
    simp only [Reading.blocks, Reading.ofState, hst]
    rfl

end Field

def loadAll {R : Type} (fields : List (Field R)) (blank : R) (s : DeclaredState) :
    Except TypeMismatch R :=
  fields.foldlM (fun record f => f.load (.ofState s) record) blank

def storeAll {R : Type} (fields : List (Field R)) (record : R) (s : DeclaredState) :
    DeclaredState :=
  fields.foldl (fun s f => s.set f.key (f.store record)) s

def fill {R : Type} (fields : List (Field R)) (blank : R) (part : (f : Field R) → f.Carrier) : R :=
  fields.foldl (fun acc f => f.set acc (part f)) blank

/-- Fields that declare a whole record: each under a key of its own and in a place of its own, and
together all there is in a record. -/
structure LawfulFields {R : Type} (fields : List (Field R)) (blank : R) : Prop where
  faithful : ∀ f ∈ fields, f.Faithful
  distinct : (fields.map (·.key)).Nodup
  get_fill : ∀ part, ∀ f ∈ fields, f.get (fill fields blank part) = part f
  fill_get : ∀ r, fill fields blank (fun f => f.get r) = r

section StoreAll
variable {R : Type} {fields : List (Field R)}

@[simp] theorem id_storeAll (fields : List (Field R)) (r : R) (s : DeclaredState) :
    (storeAll fields r s).id = s.id := by
  induction fields generalizing s with
  | nil => rfl
  | cons f fields ih => exact ih (s.set f.key (f.store r))

/-- Keys that no field declares keep what they hold. -/
theorem get?_storeAll_of_not_mem {x : String} (hx : x ∉ fields.map (·.key)) (r : R)
    (s : DeclaredState) : (storeAll fields r s).get? x = s.get? x := by
  induction fields generalizing s with
  | nil => rfl
  | cons f fields ih =>
    rw [List.map_cons, List.mem_cons, not_or] at hx
    calc
      _ = (s.set f.key (f.store r)).get? x := ih hx.2 _
      _ = s.get? x := by rw [DeclaredState.get?_set, if_neg hx.1]

/-- Each declared key takes the value of its field. -/
theorem get?_storeAll_of_mem (hd : (fields.map (·.key)).Nodup) {f : Field R} (hf : f ∈ fields)
    (r : R) (s : DeclaredState) : (storeAll fields r s).get? f.key = some (f.store r) := by
  induction fields generalizing s with
  | nil => cases hf
  | cons g fields ih =>
    rw [List.map_cons, List.nodup_cons] at hd
    rcases List.mem_cons.1 hf with rfl | hf
    · calc
        _ = (s.set f.key (f.store r)).get? f.key := get?_storeAll_of_not_mem hd.1 r _
        _ = some (f.store r) := by rw [DeclaredState.get?_set, if_pos rfl]
    · exact ih hd.2 hf _

end StoreAll

section LoadAll
variable {R : Type} {fields : List (Field R)} {blank : R}

private theorem loadAll_of_read {s : DeclaredState} {part : (f : Field R) → f.Carrier}
    (h : ∀ f ∈ fields, f.read (.ofState s) = .ok (part f)) :
    loadAll fields blank s = .ok (fill fields blank part) := by
  induction fields generalizing blank with
  | nil => rfl
  | cons f fields ih =>
    have hf : f.load (.ofState s) blank = .ok (f.set blank (part f)) := by
      rw [Field.load, h f (.head _)]
      rfl
    rw [loadAll, List.foldlM_cons, hf]
    exact ih fun g hg => h g (.tail _ hg)

private theorem read_of_loadAll {s : DeclaredState} {r : R}
    (h : loadAll fields blank s = .ok r) :
    ∀ f ∈ fields, ∃ x, f.read (.ofState s) = .ok x := by
  induction fields generalizing blank with
  | nil =>
    intro f hf
    cases hf
  | cons f fields ih =>
    rw [loadAll, List.foldlM_cons] at h
    obtain ⟨_, hload, h⟩ := exists_of_bind h
    obtain ⟨x, hx, -⟩ := exists_of_bind hload
    intro g hg
    rcases List.mem_cons.1 hg with rfl | hg
    · exact ⟨x, hx⟩
    · exact ih h g hg

/-- States of which each field reads alike, or reads from both, fail alike. -/
theorem loadAll_error_congr {blank' : R} {s t : DeclaredState} {e : TypeMismatch}
    (h : ∀ f ∈ fields, f.read (.ofState s) = f.read (.ofState t) ∨
      (∃ x, f.read (.ofState s) = .ok x) ∧ ∃ x, f.read (.ofState t) = .ok x)
    (hs : loadAll fields blank s = .error e) : loadAll fields blank' t = .error e := by
  induction fields generalizing blank blank' with
  | nil => cases hs
  | cons f fields ih =>
    rw [loadAll, List.foldlM_cons, Field.load] at hs ⊢
    rcases h f (.head _) with hsame | ⟨⟨x, hx⟩, y, hy⟩
    · rw [← hsame]
      cases hx : f.read (.ofState s) with
      | error e' =>
        rw [hx] at hs
        exact hs
      | ok x =>
        rw [hx] at hs
        exact ih (fun g hg => h g (.tail _ hg)) hs
    · rw [hx] at hs
      rw [hy]
      exact ih (fun g hg => h g (.tail _ hg)) hs

/-- A record comes out of a state exactly when each of its fields reads its own part there. -/
theorem loadAll_eq_ok_iff (hl : LawfulFields fields blank) (s : DeclaredState) (r : R) :
    loadAll fields blank s = .ok r ↔ ∀ f ∈ fields, f.read (.ofState s) = .ok (f.get r) := by
  constructor
  · intro h
    have hread := read_of_loadAll h
    let part (f : Field R) : f.Carrier :=
      match f.read (.ofState s) with
      | .ok x => x
      | .error _ => f.get blank
    have hpart : ∀ f ∈ fields, f.read (.ofState s) = .ok (part f) := by
      intro f hf
      obtain ⟨x, hx⟩ := hread f hf
      simp only [part, hx]
    rw [loadAll_of_read hpart] at h
    intro f hf
    rw [hpart f hf, ← Except.ok.inj h, hl.get_fill part f hf]
  · intro h
    rw [loadAll_of_read h, hl.fill_get]

/-- A state that holds under each key what a record would write there yields that record. -/
theorem loadAll_of_get? (hl : LawfulFields fields blank) {s : DeclaredState} {r : R}
    (h : ∀ f ∈ fields, s.get? f.key = some (f.store r)) : loadAll fields blank s = .ok r :=
  (loadAll_eq_ok_iff hl s r).2 fun f hf => (hl.faithful f hf).read_write s (f.get r) (h f hf)

end LoadAll
end Reconciler
