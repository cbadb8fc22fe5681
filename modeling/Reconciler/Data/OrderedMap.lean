/-! Maps from text keys whose entries ascend strictly by key. The order is part of the type, so
two maps that hold the same value under every key are equal. -/
namespace Reconciler

/-- Entries with strictly ascending keys, all above the bound `b` when there is one. -/
inductive Ascending (α : Type) : Option String → Type
  | nil {b : Option String} : Ascending α b
  | cons {b : Option String} (key : String) (above : ∀ k ∈ b, k < key) (value : α)
      (rest : Ascending α (some key)) : Ascending α b

abbrev OrderedMap (α : Type) := Ascending α none

namespace Ascending
variable {α : Type} {b : Option String}

def toList {b : Option String} : Ascending α b → List (String × α)
  | .nil => []
  | .cons k _ v r => (k, v) :: r.toList

def keys (m : Ascending α b) : List String := m.toList.map Prod.fst

def isEmpty : Ascending α b → Bool
  | .nil => true
  | .cons .. => false

def get? {b : Option String} : Ascending α b → String → Option α
  | .nil, _ => none
  | .cons k _ v r, key => if key = k then some v else r.get? key

def weaken {c : Option String} (m : Ascending α b) (h : ∀ k, (∀ x ∈ b, x < k) → ∀ x ∈ c, x < k) :
    Ascending α c :=
  match m with
  | .nil => .nil
  | .cons k above v r => .cons k (h k above) v r

def insertAbove {b : Option String} (key : String) (value : α) (h : ∀ k ∈ b, k < key) :
    Ascending α b → Ascending α b
  | .nil => .cons key h value .nil
  | .cons k above v r =>
    if lt : key < k then .cons key h value (.cons k (by simpa using lt) v r)
    else if eq : key = k then .cons k above value r
    else .cons k above v (r.insertAbove key value (by
      rcases Std.lt_trichotomy key k with l | e | g
      · exact absurd l lt
      · exact absurd e eq
      · simpa using g))

def erase {b : Option String} (key : String) : Ascending α b → Ascending α b
  | .nil => .nil
  | .cons k above v r =>
    if key = k then
      r.weaken (fun _ hk x hx => String.lt_trans (above x hx) (hk k rfl))
    else .cons k above v (r.erase key)

end Ascending

namespace OrderedMap
variable {α : Type}

def empty : OrderedMap α := .nil

def insert (m : OrderedMap α) (key : String) (value : α) : OrderedMap α :=
  m.insertAbove key value (by simp)

/-- The map a list of entries describes: of two entries with one key the later counts. -/
def ofList (entries : List (String × α)) : OrderedMap α :=
  entries.foldl (fun m e => m.insert e.1 e.2) empty

end OrderedMap

namespace Ascending
variable {α : Type} {b : Option String}

theorem get?_weaken {c : Option String} (m : Ascending α b)
    (h : ∀ k, (∀ x ∈ b, x < k) → ∀ x ∈ c, x < k) (key : String) :
    (m.weaken h).get? key = m.get? key := by
  cases m <;> rfl

theorem get?_eq_none_of_bound {c : String} (m : Ascending α (some c)) {key : String}
    (h : ¬ c < key) : m.get? key = none := by
  generalize hb : some c = b at m
  induction m generalizing c with
  | nil => rfl
  | cons k above v r ih =>
    subst hb
    have hk : c < k := above c rfl
    have hne : key ≠ k := fun e => h (e ▸ hk)
    have hr : ¬ k < key := fun l => h (String.lt_trans hk l)
    simp only [get?, if_neg hne]
    exact ih hr rfl

theorem get?_insertAbove (m : Ascending α b) (key : String) (value : α)
    (h : ∀ k ∈ b, k < key) (k : String) :
    (m.insertAbove key value h).get? k = if k = key then some value else m.get? k := by
  induction m with
  | nil => simp [insertAbove, get?]
  | cons k' above v r ih =>
    unfold insertAbove
    split
    · simp [get?]
    · split
      · rename_i eq
        subst eq
        by_cases hk : k = key <;> simp [get?, hk]
      · rename_i ne
        by_cases hk : k = k'
        · subst hk
          have : k ≠ key := fun e => ne e.symm
          simp [get?, this]
        · simp [get?, hk, ih]

theorem get?_erase (m : Ascending α b) (key k : String) :
    (m.erase key).get? k = if k = key then none else m.get? k := by
  induction m with
  | nil => simp [erase, get?]
  | cons k' above v r ih =>
    unfold erase
    split
    · rename_i eq
      subst eq
      rw [get?_weaken]
      by_cases hk : k = key
      · subst hk
        rw [if_pos rfl]
        exact get?_eq_none_of_bound r (String.lt_irrefl k)
      · simp [get?, hk]
    · rename_i ne
      by_cases hk : k = k'
      · subst hk
        have : k ≠ key := fun e => ne e.symm
        simp [get?, this]
      · simp [get?, hk, ih]

/-- Two maps that answer alike under every key are the same map. -/
theorem ext_get? {b : Option String} (m n : Ascending α b)
    (h : ∀ k, m.get? k = n.get? k) : m = n := by
  induction m with
  | nil =>
    cases n with
    | nil => rfl
    | cons k _ v r => simpa [get?] using h k
  | cons k above v r ih =>
    cases n with
    | nil => simpa [get?] using h k
    | cons k' above' v' r' =>
      have first : k = k' := by
        rcases Std.lt_trichotomy k k' with l | e | g
        · have hk := h k
          have hne : k ≠ k' := fun e => String.lt_irrefl k (e ▸ l)
          simp only [get?, if_true, if_neg hne] at hk
          rw [get?_eq_none_of_bound r' (String.lt_asymm l)] at hk
          cases hk
        · exact e
        · have hk := h k'
          have hne : k' ≠ k := fun e => String.lt_irrefl k' (e ▸ g)
          simp only [get?, if_true, if_neg hne] at hk
          rw [get?_eq_none_of_bound r (String.lt_asymm g)] at hk
          cases hk
      subst first
      have hv : v = v' := by simpa [get?] using h k
      subst hv
      have hr : r = r' := by
        apply ih
        intro key
        by_cases hk : key = k
        · subst hk
          rw [get?_eq_none_of_bound r (String.lt_irrefl key),
            get?_eq_none_of_bound r' (String.lt_irrefl key)]
        · simpa [get?, hk] using h key
      subst hr
      rfl

end Ascending

@[simp] theorem OrderedMap.get?_insert {α : Type} (m : OrderedMap α) (key : String) (value : α)
    (k : String) : (m.insert key value).get? k = if k = key then some value else m.get? k :=
  Ascending.get?_insertAbove m key value _ k

end Reconciler
