import Mathlib.Data.List.Basic
import Reconciler.Proofs.Api.Client
import Reconciler.Resource.Lifecycle

/-! What an identity says: the kind and the natural key of one resource. No kind's tag with its
underscore begins the identities of another, so that an identity can be adopted as one kind at
most, whatever underscores its key has. -/
namespace Reconciler

theorem toList_identity (tag key : String) :
    (identity tag key).toList = (tag ++ "_").toList ++ key.toList := by
  rw [identity, String.toList_append]

/-- The key of an identity is all that stands behind the tag and its underscore, if that is
anything. -/
theorem parseIdentity?_eq_some_iff {tag id key : String} :
    parseIdentity? tag id = some key ↔ id = identity tag key ∧ key ≠ "" := by
  have hne : key ≠ "" ↔ key.toList ≠ [] := by rw [ne_eq, ne_eq, String.toList_eq_nil_iff]
  have hid : id = identity tag key ↔ (tag ++ "_").toList ++ key.toList = id.toList := by
    rw [← toList_identity, String.toList_inj, eq_comm]
  rw [hne, hid, ← List.isPrefixOf?_eq_some_iff_append_eq]
  unfold parseIdentity?
  split
  · next c rest hbehind =>
    rw [hbehind, Option.some.injEq, Option.some.injEq, ← String.toList_inj, String.toList_ofList]
    exact ⟨fun h => ⟨h, h ▸ List.cons_ne_nil c rest⟩, And.left⟩
  · next hnone =>
    refine iff_of_false nofun fun ⟨hbehind, hkey⟩ => ?_
    obtain ⟨c, rest, hcons⟩ := List.exists_cons_of_ne_nil hkey
    exact hnone c rest (hcons ▸ hbehind)

theorem parseIdentity?_identity (tag : String) {key : String} (hkey : key ≠ "") :
    parseIdentity? tag (identity tag key) = some key :=
  parseIdentity?_eq_some_iff.2 ⟨rfl, hkey⟩

namespace Kind
variable {k l : Kind} {c : Client} {s : DeclaredState} {id : String}

/-- Each tag ends at an underscore where no other tag does. -/
theorem eq_of_tag (h : (k.tag ++ "_").toList <+: (l.tag ++ "_").toList) : k = l := by
  revert h
  cases k <;> cases l <;> decide

theorem identity_eq_iff {a b : String} : identity k.tag a = identity l.tag b ↔ k = l ∧ a = b := by
  constructor
  · intro h
    rw [← String.toList_inj, toList_identity, toList_identity] at h
    have hk : (k.tag ++ "_").toList <+: (l.tag ++ "_").toList ++ b.toList :=
      h ▸ List.prefix_append ..
    obtain rfl : k = l := (List.prefix_or_prefix_of_prefix hk (List.prefix_append ..)).elim
      eq_of_tag fun hl => (eq_of_tag hl).symm
    exact ⟨rfl, String.toList_inj.1 (List.append_cancel_left h)⟩
  · rintro ⟨rfl, rfl⟩
    rfl

/-- A reading blames the state, never an identity. -/
theorem read_ne_invalidIdentity {t : DeclaredState} :
    k.read c s ≠ .settled (.error (.invalidIdentity k id), t) := by
  unfold read
  intro h
  split at h
  · next e hkeyed =>
    cases h
    unfold keyed at hkeyed
    split at hkeyed
    · cases hkeyed
    · dsimp only at hkeyed
      split at hkeyed
      · cases hkeyed
      · split at hkeyed <;> cases hkeyed
  · cases h

/-- An identity is refused by a kind that finds no key in it, and by no other. -/
theorem adopt_eq_invalidIdentity_iff :
    k.adopt c id s = .settled (.error (.invalidIdentity k id), s) ↔
      parseIdentity? k.tag id = none := by
  unfold adopt
  cases hparse : parseIdentity? k.tag id with
  | none => exact iff_of_true rfl rfl
  | some key => exact iff_of_false read_ne_invalidIdentity nofun

/-- An identity stands for one resource, and only its kind can adopt it. -/
theorem identities_unambiguous :
    (∀ tag key id, parseIdentity? tag id = some key ↔ id = identity tag key ∧ key ≠ "") ∧
    (∀ (k l : Kind) (a b : String), identity k.tag a = identity l.tag b ↔ k = l ∧ a = b) ∧
    ∀ (k l : Kind) (c d : Client) (s t : DeclaredState) (id : String),
      k.adopt c id s ≠ .settled (.error (.invalidIdentity k id), s) →
      l.adopt d id t ≠ .settled (.error (.invalidIdentity l id), t) → k = l := by
  refine ⟨fun _ _ _ => parseIdentity?_eq_some_iff, fun _ _ _ _ => identity_eq_iff, ?_⟩
  intro k l c d s t id hk hl
  rw [ne_eq, adopt_eq_invalidIdentity_iff, ← ne_eq, Option.ne_none_iff_exists'] at hk hl
  obtain ⟨a, hka⟩ := hk
  obtain ⟨b, hlb⟩ := hl
  have hid : identity k.tag a = identity l.tag b :=
    (parseIdentity?_eq_some_iff.1 hka).1.symm.trans (parseIdentity?_eq_some_iff.1 hlb).1
  exact (identity_eq_iff.1 hid).1

/-- Underscores in the tag and in the key leave one reading. -/
theorem identities_unambiguous_underscores :
    parseIdentity? "cpu_limits" "cpu_limits_abc_1" = some "abc_1" ∧
    ∀ l, l ≠ cpuLimits → l.adopt .blank "cpu_limits_abc_1" .empty =
      .settled (.error (.invalidIdentity l "cpu_limits_abc_1"), .empty) := by
  have hparse : parseIdentity? cpuLimits.tag "cpu_limits_abc_1" = some "abc_1" :=
    (identities_unambiguous.1 _ _ _).2 ⟨rfl, by decide⟩
  refine ⟨hparse, fun l hl => ?_⟩
  by_contra hother
  refine hl (identities_unambiguous.2.2 l cpuLimits .blank .blank .empty .empty _ hother ?_)
  rw [ne_eq, adopt_eq_invalidIdentity_iff, hparse]
  exact Option.some_ne_none _

end Kind
end Reconciler
