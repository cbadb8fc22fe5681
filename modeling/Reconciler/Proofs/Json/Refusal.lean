import Reconciler.Json.Reader

/-! Typed readers take a JSON text whole or not at all: what one of them refuses at some place
inside a text makes the text as a whole refused. -/
namespace Reconciler.Json
variable {α β : Type}

inductive Hop
  | member (names : List String) (name : String)
  | item

/-- Where a hop leads. A record may also be the array of its first values, in order. -/
def Hop.Leads : Hop → Json → Json → Prop
  | .member _ name, .object members, j => (some name, j) ∈ members
  | .member names name, .array items, j => (name, j) ∈ names.zip items
  | .item, .array items, j => j ∈ items
  | _, _, _ => False

theorem Hop.leads_record {names : List String} {name : String} {j : Json}
    {members : List (String × Json)} (h : (name, j) ∈ members) :
    (member names name).Leads (.record members) j :=
  List.mem_map.2 ⟨_, h, rfl⟩

def Leads : List Hop → Json → Json → Prop
  | [], j, inner => j = inner
  | hop :: place, j, inner => ∃ next, hop.Leads j next ∧ Leads place next inner

/-- A reader takes no text that holds something bad at a place. -/
def Refuses (value : Json → Option α) (place : List Hop) (bad : Json → Prop) : Prop :=
  ∀ j inner, Leads place j inner → bad inner → value j = none

def IsIntBeyond (low high : Int) (j : Json) : Prop :=
  ∃ i, j.toInt? = some i ∧ (i < low ∨ high < i)

section Integers

theorem toIntIn?_of_beyond {low high : Int} {j : Json} (h : j.IsIntBeyond low high) :
    j.toIntIn? low high = none := by
  obtain ⟨i, hi, hout⟩ := h
  rw [toIntIn?, hi, Option.filter_eq_none_iff]
  rintro _ ⟨⟩
  rw [Bool.and_eq_true, decide_eq_true_eq, decide_eq_true_eq]
  omega

theorem refuses_map_toIntIn? {low high : Int} (f : Int → α) :
    Refuses (fun j => (j.toIntIn? low high).map f) [] (IsIntBeyond low high) := by
  rintro j _ rfl hbad
  simp only [toIntIn?_of_beyond hbad, Option.map_none]

theorem refuses_toUInt16? : Refuses toUInt16? [] (IsIntBeyond 0 0xFFFF) :=
  refuses_map_toIntIn? _

theorem refuses_toUInt32? : Refuses toUInt32? [] (IsIntBeyond 0 0xFFFFFFFF) :=
  refuses_map_toIntIn? _

theorem refuses_toInt64? :
    Refuses toInt64? [] (IsIntBeyond (-0x8000000000000000) 0x7FFFFFFFFFFFFFFF) :=
  refuses_map_toIntIn? _

end Integers

/-- A list that is read whole has each of its items read. -/
theorem exists_of_mapM {f : α → Option β} {xs : List α} {ys : List β} (h : xs.mapM f = some ys) :
    ∀ x ∈ xs, ∃ y ∈ ys, f x = some y := by
  induction xs generalizing ys with
  | nil => exact List.forall_mem_nil _
  | cons x xs ih =>
    simp only [List.mapM_cons, Option.bind_eq_bind, Option.bind_eq_some_iff] at h
    obtain ⟨y, hy, ys, hys, hcons⟩ := h
    cases hcons
    refine List.forall_mem_cons.2 ⟨⟨y, .head _, hy⟩, fun x' hx' => ?_⟩
    obtain ⟨y', hy', hf⟩ := ih hys x' hx'
    exact ⟨y', .tail _ hy', hf⟩

theorem lookup_of_mem {members : List (String × Json)} (hd : (members.map Prod.fst).Nodup)
    {name : String} {j : Json} (h : (name, j) ∈ members) : members.lookup name = some j := by
  induction members with
  | nil => cases h
  | cons m members ih =>
    rw [List.map_cons, List.nodup_cons] at hd
    rcases List.mem_cons.1 h with rfl | h
    · exact List.lookup_cons_self
    · have hne : name ≠ m.1 := fun heq => hd.1 (heq ▸ List.mem_map_of_mem h)
      rw [List.lookup_cons, beq_false_of_ne hne]
      exact ih hd.2 h

theorem nodup_zip {names : List String} (hd : names.Nodup) (items : List Json) :
    ((names.zip items).map Prod.fst).Nodup := by
  refine List.Nodup.sublist ?_ hd
  induction names generalizing items with
  | nil => exact .slnil
  | cons name names ih =>
    cases items with
    | nil => exact List.nil_sublist _
    | cons j items => exact (ih (List.nodup_cons.1 hd).2 items).cons_cons name

/-- Of the members that a record is read into, one that a hop leads to is among them. -/
theorem lookup_members? {names : List String} (hd : names.Nodup) {name : String}
    (hname : name ∈ names) {j inner : Json} {members : List (String × Json)}
    (hj : j.members? names = some members) (hhop : (Hop.member names name).Leads j inner) :
    members.lookup name = some inner := by
  cases j with
  | object all =>
    simp only [members?, Option.bind_eq_bind, Option.bind_eq_some_iff] at hj
    obtain ⟨spelled, hspelled, hknown⟩ := hj
    obtain ⟨⟨_, _⟩, hmem, hm⟩ := exists_of_mapM hspelled _ hhop
    cases hm
    split at hknown
    · next hnodup =>
      cases hknown
      refine lookup_of_mem hnodup (List.mem_filter.2 ⟨hmem, ?_⟩)
      simpa using hname
    · cases hknown
  | array items =>
    simp only [members?, Option.ite_none_right_eq_some, Option.some.injEq] at hj
    obtain ⟨-, rfl⟩ := hj
    exact lookup_of_mem (nodup_zip hd items) hhop
  | _ => cases hhop

section Readers
variable {value : Json → Option α} {place : List Hop} {bad : Json → Prop}

theorem Refuses.toList? (h : Refuses value place bad) :
    Refuses (Json.toList? value) (.item :: place) bad := by
  rintro j inner ⟨item, hitem, hplace⟩ hbad
  cases j with
  | array items =>
    cases hread : items.mapM value with
    | none => exact hread
    | some xs =>
      obtain ⟨x, -, hx⟩ := exists_of_mapM hread item hitem
      rw [h item inner hplace hbad] at hx
      cases hx
  | _ => cases hitem

theorem Refuses.toOption? {hop : Hop} (h : Refuses value (hop :: place) bad) :
    Refuses (Json.toOption? value) (hop :: place) bad := by
  intro j inner hplace hbad
  have hnone := h j inner hplace hbad
  cases j with
  | null =>
    obtain ⟨_, hhop, _⟩ := hplace
    cases hop <;> cases hhop
  | _ => exact congrArg (Option.map some) hnone

/-- A record is refused with the value of any of its members. -/
theorem Refuses.member (h : Refuses value place bad) (missing : α) {names : List String}
    {name : String} (hd : names.Nodup) (hname : name ∈ names)
    {record : List (String × Json) → Option β}
    (hrecord : ∀ members, optional members name value missing = none → record members = none) :
    Refuses (fun j => j.members? names >>= record) (.member names name :: place) bad := by
  rintro j inner ⟨next, hhop, hplace⟩ hbad
  dsimp only
  cases hj : j.members? names with
  | none => rfl
  | some members =>
    refine hrecord members ?_
    rw [optional, lookup_members? hd hname hj hhop]
    exact h next inner hplace hbad

end Readers
end Reconciler.Json
