import Mathlib.Data.List.TakeWhile
import Reconciler.Api.DocumentServer
import Reconciler.Resource.Kind

/-! Where resources live. Different resources have different paths, and whatever base URL a client
joins them to, a document server sees them at different places too. -/
namespace Reconciler

def slashed (segments : List (List Char)) : List Char := segments.flatMap ('/' :: ·)

section Slashed

theorem slashed_cons (s : List Char) (segments : List (List Char)) :
    slashed (s :: segments) = '/' :: (s ++ slashed segments) := rfl

theorem dropWhile_append_slashed (front : List Char) (segments : List (List Char)) :
    (front ++ slashed segments).dropWhile (· ≠ '/') =
      front.dropWhile (· ≠ '/') ++ slashed segments := by
  induction front with
  | nil => cases segments <;> rfl
  | cons c front ih =>
    rw [List.cons_append, List.dropWhile_cons, List.dropWhile_cons]
    split
    · exact ih
    · rfl

theorem dropWhile_segment {s : List Char} (hs : '/' ∉ s) : s.dropWhile (· ≠ '/') = [] := by
  rw [List.dropWhile_eq_nil_iff]
  intro c hc
  simpa using fun h : c = '/' => hs (h ▸ hc)

theorem not_mem_slashed {c : Char} {segments : List (List Char)} (hc : c ≠ '/')
    (h : ∀ s ∈ segments, c ∉ s) : c ∉ slashed segments := by
  intro hmem
  obtain ⟨s, hs, hcs⟩ := List.mem_flatMap.1 hmem
  rcases List.mem_cons.1 hcs with hslash | hcs
  · exact hc hslash
  · exact h s hs hcs

/-- Segments without slashes can be told apart again. -/
theorem slashed_inj {xs ys : List (List Char)} (hx : ∀ s ∈ xs, '/' ∉ s) (hy : ∀ s ∈ ys, '/' ∉ s)
    (h : slashed xs = slashed ys) : xs = ys := by
  induction xs generalizing ys with
  | nil =>
    cases ys with
    | nil => rfl
    | cons y ys => cases h
  | cons x xs ih =>
    cases ys with
    | nil => cases h
    | cons y ys =>
      rw [List.forall_mem_cons] at hx hy
      have hjoined : x ++ slashed xs = y ++ slashed ys := List.tail_eq_of_cons_eq h
      have hrest : slashed xs = slashed ys := by
        have hdrop := congrArg (List.dropWhile (· ≠ '/')) hjoined
        rwa [dropWhile_append_slashed, dropWhile_append_slashed, dropWhile_segment hx.1,
          dropWhile_segment hy.1] at hdrop
      rw [hrest] at hjoined
      rw [List.append_cancel_right hjoined, ih hx.2 hy.2 hrest]

/-- Behind whatever front, a path ends in the last segments of the whole. -/
theorem suffix_of_slashed {front : List Char} {xs ys : List (List Char)} (hx : ∀ s ∈ xs, '/' ∉ s)
    (hy : ∀ s ∈ ys, '/' ∉ s) (h : front ++ slashed xs = slashed ys) : xs <:+ ys := by
  induction ys generalizing front with
  | nil =>
    obtain rfl : xs = [] := slashed_inj hx hy (List.append_eq_nil_iff.1 h).2
    exact List.suffix_rfl
  | cons y ys ih =>
    cases front with
    | nil => exact slashed_inj hx hy h ▸ List.suffix_rfl
    | cons c front =>
      rw [List.forall_mem_cons] at hy
      have hjoined : front ++ slashed xs = y ++ slashed ys := List.tail_eq_of_cons_eq h
      have hrest : front.dropWhile (· ≠ '/') ++ slashed xs = slashed ys := by
        have hdrop := congrArg (List.dropWhile (· ≠ '/')) hjoined
        rwa [dropWhile_append_slashed, dropWhile_append_slashed, dropWhile_segment hy.1] at hdrop
      exact (ih hy.2 hrest).trans (List.suffix_cons y ys)

end Slashed

namespace DocumentServer

/-- A scheme ends at the first colon with two slashes behind it. -/
theorem afterScheme?_cons (c : Char) (r : List Char) : afterScheme? (c :: r) =
    if c = ':' ∧ ['/', '/'] <+: r then some (r.drop 2) else afterScheme? r := by
  by_cases h : c = ':' ∧ ['/', '/'] <+: r
  · rw [if_pos h]
    obtain ⟨rfl, r, rfl⟩ := h
    rfl
  · rw [if_neg h, afterScheme?]
    intro r' hc hr
    exact h ⟨hc, r', hr.symm⟩

theorem two_le_length_of_afterScheme? {base rest : List Char} (h : afterScheme? base = some rest) :
    2 ≤ base.length := by
  induction base with
  | nil => cases h
  | cons c base ih =>
    rw [afterScheme?_cons] at h
    split at h
    · next hmarker => exact Nat.le_succ_of_le hmarker.2.length_le
    · exact Nat.le_succ_of_le (ih h)

theorem afterScheme?_append {base rest : List Char} (h : afterScheme? base = some rest)
    (tail : List Char) : afterScheme? (base ++ tail) = some (rest ++ tail) := by
  induction base with
  | nil => cases h
  | cons c base ih =>
    rw [List.cons_append, afterScheme?_cons]
    rw [afterScheme?_cons] at h
    split at h
    · next hmarker =>
      have hlength : 2 ≤ base.length := hmarker.2.length_le
      rw [if_pos ⟨hmarker.1, hmarker.2.trans (List.prefix_append ..)⟩,
        List.drop_append_of_le_length hlength, Option.some.inj h]
    · next hmarker =>
      -- the base is long enough to hold a marker that begins here, and holds none
      rw [if_neg, ih h]
      rintro ⟨hc, hslashes⟩
      exact hmarker ⟨hc, List.prefix_of_prefix_length_le hslashes (List.prefix_append ..)
        (two_le_length_of_afterScheme? h)⟩

theorem afterScheme?_of_no_colon {tail : List Char} (h : ':' ∉ tail) :
    afterScheme? tail = none := by
  induction tail with
  | nil => rfl
  | cons c tail ih =>
    rw [List.mem_cons, not_or] at h
    rw [afterScheme?_cons, if_neg fun hmarker => h.1 hmarker.1.symm, ih h.2]

/-- Where the base has no scheme, a path can complete one at most at its own first slash. -/
theorem afterScheme?_append_of_none {base tail : List Char} (h : afterScheme? base = none)
    (hcolon : ':' ∉ tail) (hslash : tail.head? ≠ some '/') :
    afterScheme? (base ++ '/' :: tail) = if [':', '/'] <:+ base then some tail else none := by
  induction base with
  | nil => exact afterScheme?_of_no_colon (by simpa using hcolon)
  | cons c base ih =>
    rw [afterScheme?_cons] at h
    split at h
    · cases h
    next hmarker =>
    rw [List.cons_append, afterScheme?_cons]
    by_cases hend : c :: base = [':', '/']
    · obtain ⟨rfl, rfl⟩ := List.cons.inj hend
      rfl
    · have hsuffix : [':', '/'] <:+ c :: base ↔ [':', '/'] <:+ base := by
        rw [List.suffix_cons_iff, eq_comm, or_iff_right hend]
      rw [if_neg, ih h]
      · simp only [hsuffix]
      · rintro ⟨rfl, hslashes⟩
        rcases base with - | ⟨d, - | ⟨e, base⟩⟩
        · obtain ⟨rest, hrest⟩ := hslashes
          cases hrest
          exact hslash rfl
        · obtain ⟨rest, hrest⟩ := hslashes
          cases hrest
          exact hend rfl
        · obtain ⟨rest, hrest⟩ := hslashes
          cases hrest
          exact hmarker ⟨rfl, base, rfl⟩

theorem toList_pathOf {url : String} {path : List Char} (hne : path ≠ [])
    (h : ((afterScheme? url.toList).getD url.toList).dropWhile (· ≠ '/') = path) :
    (pathOf url).toList = path := by
  obtain ⟨c, path, rfl⟩ := List.exists_cons_of_ne_nil hne
  simp only [pathOf, h, String.toList_ofList]

/-- Behind one base, all paths are seen alike: whole under one front, or less their first segment
under none. -/
theorem exists_toList_pathOf (base : String) : ∃ front n, (n = 0 ∨ n = 1 ∧ front = []) ∧
    ∀ s segments, s ≠ [] → '/' ∉ s → segments ≠ [] → (∀ t ∈ s :: segments, ':' ∉ t) →
      (pathOf (base ++ .ofList (slashed (s :: segments)))).toList =
        front ++ slashed ((s :: segments).drop n) := by
  cases hscheme : afterScheme? base.toList with
  | some rest =>
    refine ⟨rest.dropWhile (· ≠ '/'), 0, .inl rfl, ?_⟩
    intro s segments _ _ _ _
    refine toList_pathOf (by simp [slashed_cons]) ?_
    rw [String.toList_append, String.toList_ofList, afterScheme?_append hscheme, Option.getD_some]
    exact dropWhile_append_slashed ..
  | none =>
    have hafter : ∀ s segments, s ≠ [] → '/' ∉ s → (∀ t ∈ s :: segments, ':' ∉ t) →
        afterScheme? (base.toList ++ slashed (s :: segments)) =
          if [':', '/'] <:+ base.toList then some (s ++ slashed segments) else none := by
      intro s segments hne hs hcolon
      have htail : ':' ∉ slashed (s :: segments) := not_mem_slashed (by decide) hcolon
      rw [slashed_cons, List.mem_cons, not_or] at htail
      refine afterScheme?_append_of_none hscheme htail.2 ?_
      obtain ⟨c, s, rfl⟩ := List.exists_cons_of_ne_nil hne
      simpa using fun h : c = '/' => hs (h ▸ .head _)
    by_cases hend : [':', '/'] <:+ base.toList
    · refine ⟨[], 1, .inr ⟨rfl, rfl⟩, ?_⟩
      intro s segments hne hs hrest hcolon
      obtain ⟨t, segments, rfl⟩ := List.exists_cons_of_ne_nil hrest
      refine toList_pathOf (by simp [slashed_cons]) ?_
      rw [String.toList_append, String.toList_ofList, hafter s _ hne hs hcolon, if_pos hend,
        Option.getD_some, dropWhile_append_slashed, dropWhile_segment hs]
      rfl
    · refine ⟨base.toList.dropWhile (· ≠ '/'), 0, .inl rfl, ?_⟩
      intro s segments hne hs _ hcolon
      refine toList_pathOf (by simp [slashed_cons]) ?_
      rw [String.toList_append, String.toList_ofList, hafter s _ hne hs hcolon, if_neg hend,
        Option.getD_none]
      exact dropWhile_append_slashed ..

end DocumentServer

theorem isUnreserved_of_isPathSegment {key : String} (h : isPathSegment key = true) {c : Char}
    (hc : c ∈ key.toList) : isUnreserved c = true := by
  simp only [isPathSegment, Bool.and_eq_true, List.all_eq_true] at h
  exact h.2 c hc

theorem not_mem_of_isPathSegment {key : String} (h : isPathSegment key = true) {c : Char}
    (hc : isUnreserved c = false) : c ∉ key.toList := by
  intro hmem
  rw [isUnreserved_of_isPathSegment h hmem] at hc
  cases hc

namespace Kind
open DocumentServer (pathOf)

def segments (key : List Char) : Kind → List (List Char)
  | .node => ["v2".toList, "node".toList, key]
  | .snmp => ["node".toList, key, "config".toList, "snmp".toList]
  | .cpuLimits => ["v2".toList, "node".toList, key, "exec".toList, "limit".toList]
  | .ioLimits => ["v2".toList, "node".toList, key, "exec".toList, "io".toList]
  | .license => ["v2".toList, "node".toList, key, "license".toList]

theorem path_eq (k : Kind) (key : String) :
    k.path key = .ofList (slashed (k.segments key.toList)) := by
  rw [← String.toList_inj]
  cases k <;> simp [path, segments, slashed, toString]

/-- Also without their first segment, the paths of different resources differ. -/
theorem drop_segments_inj {k l : Kind} {a b : List Char} {n : Nat} (hn : n ≤ 1)
    (h : (k.segments a).drop n = (l.segments b).drop n) : k = l ∧ a = b := by
  obtain rfl | rfl : n = 0 ∨ n = 1 := by omega
  all_goals cases k <;> cases l <;> simp_all [segments]

/-- The path of a resource does not end in that of another. -/
theorem segments_suffix {k l : Kind} {a b : List Char} (h : k.segments a <:+ l.segments b) :
    k = l ∧ a = b := by
  cases k <;> cases l <;> simp_all [segments, List.suffix_cons_iff]

theorem segments_eq_cons (k : Kind) (key : List Char) : ∃ s segments,
    k.segments key = s :: segments ∧ s ≠ [] ∧ '/' ∉ s ∧ segments ≠ [] := by
  cases k <;> exact ⟨_, _, rfl, by decide, by decide, by simp⟩

/-- No character that keys may not have is in a segment. -/
theorem not_mem_segments {k : Kind} {key : String} (hkey : isPathSegment key = true) {c : Char}
    (hc : isUnreserved c = false) : ∀ s ∈ k.segments key.toList, c ∉ s := by
  have hfixed : ∀ s ∈ ["v2", "node", "config", "snmp", "exec", "limit", "io", "license"],
      c ∉ s.toList := by
    intro s hs
    refine not_mem_of_isPathSegment ?_ hc
    revert s
    decide
  have hmem := not_mem_of_isPathSegment hkey hc
  cases k <;> simp_all [segments]

/-- What a server sees of the paths of resources behind one base. -/
theorem exists_toList_pathOf (base : String) : ∃ front n, (n = 0 ∨ n = 1 ∧ front = []) ∧
    ∀ (k : Kind) (key : String), isPathSegment key = true →
      (pathOf (base ++ k.path key)).toList = front ++ slashed ((k.segments key.toList).drop n) := by
  obtain ⟨front, n, hn, hseen⟩ := DocumentServer.exists_toList_pathOf base
  refine ⟨front, n, hn, ?_⟩
  intro k key hkey
  have hcolon := not_mem_segments (k := k) hkey (c := ':') (by decide)
  obtain ⟨s, rest, hsegments, hne, hs, hrest⟩ := k.segments_eq_cons key.toList
  rw [hsegments] at hcolon
  rw [path_eq, hsegments]
  exact hseen s rest hne hs hrest hcolon

/-- Different resources are at different places on a server, whatever the base URL is. -/
theorem pathOf_inj {base a b : String} {k l : Kind} (ha : isPathSegment a = true)
    (hb : isPathSegment b = true) (h : pathOf (base ++ k.path a) = pathOf (base ++ l.path b)) :
    k = l ∧ a = b := by
  obtain ⟨front, n, hn, hseen⟩ := exists_toList_pathOf base
  have hslash := congrArg String.toList h
  rw [hseen k a ha, hseen l b hb] at hslash
  have hsegments := slashed_inj
    (fun s hs => not_mem_segments ha (by decide) s (List.mem_of_mem_drop hs))
    (fun s hs => not_mem_segments hb (by decide) s (List.mem_of_mem_drop hs))
    (List.append_cancel_left hslash)
  obtain ⟨rfl, hkey⟩ := drop_segments_inj (by omega) hsegments
  exact ⟨rfl, String.toList_inj.1 hkey⟩

/-- No base URL takes a resource to the path of another. -/
theorem eq_of_pathOf_eq_path {base a b : String} {k l : Kind} (ha : isPathSegment a = true)
    (hb : isPathSegment b = true) (h : pathOf (base ++ k.path a) = l.path b) : k = l ∧ a = b := by
  obtain ⟨front, n, hn, hseen⟩ := exists_toList_pathOf base
  have hslash := congrArg String.toList h
  rw [hseen k a ha, path_eq, String.toList_ofList] at hslash
  have hka : ∀ s ∈ (k.segments a.toList).drop n, '/' ∉ s := fun s hs =>
    not_mem_segments ha (by decide) s (List.mem_of_mem_drop hs)
  have hlb : ∀ s ∈ l.segments b.toList, '/' ∉ s := not_mem_segments hb (by decide)
  rcases hn with rfl | ⟨rfl, rfl⟩
  · obtain ⟨rfl, hkey⟩ := segments_suffix (suffix_of_slashed hka hlb hslash)
    exact ⟨rfl, String.toList_inj.1 hkey⟩
  · -- without its first segment a path is too short, or has the wrong one in front
    have hsegments := slashed_inj hka hlb hslash
    cases k <;> cases l <;> simp [segments] at hsegments

end Kind
end Reconciler
