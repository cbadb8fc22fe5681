import Reconciler.Declared.State

/-! Comparing declared values. All numbers are finite, so every value is the same as itself; and
two states are the same exactly when they answer alike under every key. -/
namespace Reconciler

theorem Binary64.same_refl (x : Binary64) : x.same x = true := by
  simp [same]

namespace Value

mutual
theorem same_refl : (v : Value) → v.same v = true
  | .bool b => beq_self_eq_true b
  | .int i => beq_self_eq_true i
  | .float x => x.same_refl
  | .string s => beq_self_eq_true s
  | .list items => sameItems_refl items
  | .map block => sameEntries_refl block

theorem sameItems_refl : (vs : List Value) → sameItems vs vs = true
  | [] => rfl
  | v :: vs => by rw [sameItems, same_refl v, sameItems_refl vs, Bool.and_self]

theorem sameEntries_refl {b : Option String} : (m : Ascending Value b) → sameEntries m m = true
  | .nil => rfl
  | .cons k _ v r => by
    rw [sameEntries, same_refl v, sameEntries_refl r, beq_self_eq_true]
    rfl
end

def sameAnswer : Option Value → Option Value → Bool
  | none, none => true
  | some v, some w => v.same w
  | none, some _ | some _, none => false

theorem sameAnswer_refl : (v : Option Value) → sameAnswer v v = true
  | none => rfl
  | some v => v.same_refl

/-- The first keys of two maps with the same answers are equal. -/
theorem firstKey_eq {b c : Option String} {k k' : String} {above : ∀ x ∈ b, x < k}
    {above' : ∀ x ∈ c, x < k'} {v v' : Value} {r : Ascending Value (some k)}
    {r' : Ascending Value (some k')}
    (h : ∀ key, sameAnswer ((Ascending.cons k above v r).get? key)
      ((Ascending.cons k' above' v' r').get? key) = true) : k = k' := by
  rcases Std.lt_trichotomy k k' with hlt | heq | hgt
  · have hk := h k
    have hne : k ≠ k' := fun he => String.lt_irrefl k (he ▸ hlt)
    simp only [Ascending.get?, if_true, if_neg hne] at hk
    rw [Ascending.get?_eq_none_of_bound r' (String.lt_asymm hlt)] at hk
    cases hk
  · exact heq
  · have hk := h k'
    have hne : k' ≠ k := fun he => String.lt_irrefl k' (he ▸ hgt)
    simp only [Ascending.get?, if_true, if_neg hne] at hk
    rw [Ascending.get?_eq_none_of_bound r (String.lt_asymm hgt)] at hk
    cases hk

/-- Two maps are the same exactly when they answer alike under every key. -/
theorem sameEntries_iff {b c : Option String} (m : Ascending Value b) (n : Ascending Value c) :
    sameEntries m n = true ↔ ∀ key, sameAnswer (m.get? key) (n.get? key) = true := by
  induction m generalizing c with
  | nil =>
    cases n with
    | nil => exact iff_of_true rfl fun _ => rfl
    | cons k' _ v' r' =>
      refine iff_of_false Bool.false_ne_true fun h => ?_
      simpa [Ascending.get?, sameAnswer] using h k'
  | cons k above v r ih =>
    cases n with
    | nil =>
      refine iff_of_false Bool.false_ne_true fun h => ?_
      simpa [Ascending.get?, sameAnswer] using h k
    | cons k' above' v' r' =>
      simp only [sameEntries, Bool.and_eq_true, beq_iff_eq, and_assoc]
      constructor
      · rintro ⟨rfl, hv, hr⟩ key
        rw [Ascending.get?, Ascending.get?]
        split
        · exact hv
        · exact (ih r').1 hr key
      · intro h
        obtain rfl := firstKey_eq h
        refine ⟨rfl, by simpa [Ascending.get?, sameAnswer] using h k, (ih r').2 fun key => ?_⟩
        by_cases hkey : key = k
        · subst hkey
          rw [Ascending.get?_eq_none_of_bound r (String.lt_irrefl key),
            Ascending.get?_eq_none_of_bound r' (String.lt_irrefl key)]
          rfl
        · simpa [Ascending.get?, hkey] using h key

end Value

namespace DeclaredState

theorem same_refl (s : DeclaredState) : s.same s = true := by
  rw [same, beq_self_eq_true, Value.sameEntries_refl, Bool.and_self]

/-- States are the same just if they have one identity and the same values. -/
theorem same_iff {s t : DeclaredState} : s.same t = true ↔
    s.id = t.id ∧ ∀ key, Value.sameAnswer (s.get? key) (t.get? key) = true := by
  rw [same, Bool.and_eq_true, beq_iff_eq, Value.sameEntries_iff]
  rfl

end DeclaredState
end Reconciler
