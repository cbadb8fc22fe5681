import Reconciler.Json.Reader
import Reconciler.Proofs.Json.Text

/-! Typed values come back from the JSON they are written as: scalars, lists, and the members of a
record, also where some of them are left out. -/
namespace Reconciler.Json

@[simp] theorem toText?_text (s : String) : (text s).toText? = some s := rfl

@[simp] theorem toBool?_bool (b : Bool) : (bool b).toBool? = some b := rfl

@[simp] theorem toInt?_int (i : Int) : (int i).toInt? = some i := by
  simp only [toInt?, int, Number.ofInt, Number.toInt?, decide_eq_true_eq]
  split
  · rw [if_neg (by omega)]
    exact congrArg some (by omega)
  · exact congrArg some (by omega)

/-- Within the range, an integer comes back. -/
theorem toIntIn?_int {low high i : Int} (hl : low ≤ i) (hh : i ≤ high) :
    (int i).toIntIn? low high = some i := by
  simp [toIntIn?, Option.filter, hl, hh]

@[simp] theorem toUInt16?_int (n : UInt16) : (int n.toNat).toUInt16? = some n := by
  have hn := n.toNat_lt
  rw [toUInt16?, toIntIn?_int (by omega) (by omega), Option.map_some, Int.toNat_natCast,
    UInt16.ofNat_toNat]

@[simp] theorem toUInt32?_int (n : UInt32) : (int n.toNat).toUInt32? = some n := by
  have hn := n.toNat_lt
  rw [toUInt32?, toIntIn?_int (by omega) (by omega), Option.map_some, Int.toNat_natCast,
    UInt32.ofNat_toNat]

@[simp] theorem toInt64?_int (i : Int64) : (int i.toInt).toInt64? = some i := by
  have hl := i.le_toInt
  have hh := i.toInt_lt
  rw [toInt64?, toIntIn?_int (by omega) (by omega), Option.map_some, Int64.ofInt_toInt]

theorem toList?_array_map_of_mem {α : Type} {write : α → Json} {read : Json → Option α}
    {xs : List α} (h : ∀ x ∈ xs, read (write x) = some x) :
    (array (xs.map write)).toList? read = some xs := by
  change (xs.map write).mapM read = some xs
  induction xs with
  | nil => rfl
  | cons x xs ih =>
    rw [List.forall_mem_cons] at h
    simp [h.1, ih h.2]

/-- A list comes back if each of its items does. -/
theorem toList?_array_map {α : Type} {write : α → Json} {read : Json → Option α}
    (h : ∀ x, read (write x) = some x) (xs : List α) :
    (array (xs.map write)).toList? read = some xs :=
  toList?_array_map_of_mem fun x _ => h x

/-- What is written as a record is not taken for nothing. -/
theorem toOption?_record {α : Type} {read : Json → Option α} {members : List (String × Json)}
    {x : α} (h : read (record members) = some x) :
    (record members).toOption? read = some (some x) := by
  change (read (record members)).map some = _
  rw [h, Option.map_some]

theorem toOption?_text {α : Type} {read : String → Option α} {s : String} {x : α}
    (h : read s = some x) :
    (text s).toOption? (fun j => j.toText?.bind read) = some (some x) := by
  change (read s).map some = _
  rw [h, Option.map_some]

section Members
variable {names : List String} {members : List (String × Json)}

private theorem mapM_name (members : List (String × Json)) :
    (members.map fun m => (some m.1, m.2)).mapM
      (fun m : Option String × Json => m.1.map fun name => (name, m.2)) = some members := by
  induction members with
  | nil => rfl
  | cons m members ih => simp [ih]

/-- All members are known, and each is there once. -/
theorem members?_record (hknown : ∀ m ∈ members, m.1 ∈ names)
    (hd : (members.map Prod.fst).Nodup) : (record members).members? names = some members := by
  have hfilter : members.filter (fun m => names.contains m.1) = members :=
    List.filter_eq_self.2 fun m hm => by simpa using hknown m hm
  simp only [record, members?, mapM_name, Option.bind_eq_bind, Option.bind_some, hfilter, if_pos hd]

section Optional
variable {α : Type} {name : String} {value : Json → Option α} {missing : α}

@[simp] theorem optional_nil : optional [] name value missing = some missing := rfl

@[simp] theorem optional_cons (x : String) (j : Json) :
    optional ((x, j) :: members) name value missing =
      if name = x then value j else optional members name value missing := by
  by_cases h : name = x
  · simp [optional, h]
  · simp [optional, List.lookup_cons, beq_false_of_ne h, h]

end Optional
end Members
end Reconciler.Json
