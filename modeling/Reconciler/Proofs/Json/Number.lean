import Reconciler.Json.Parser
import Reconciler.Json.Printer

/-! A number comes back from its spelling, whatever follows that cannot belong to it. -/
namespace Reconciler

def continuesNumber : List Char → Bool
  | c :: _ => isDecimalDigit c || c == '.' || c == 'e' || c == 'E'
  | [] => false

def continuesDigits : List Char → Bool
  | c :: _ => isDecimalDigit c
  | [] => false

theorem continuesDigits_of_continuesNumber {r : List Char} (h : continuesNumber r = false) :
    continuesDigits r = false := by
  cases r with
  | nil => rfl
  | cons c r =>
    simp only [continuesNumber, Bool.or_eq_false_iff] at h
    exact h.1.1.1

namespace Number

/-- The fraction of a number as it can be spelled. -/
def WellSpelled (n : Number) : Prop := ∀ c ∈ n.fraction, isDecimalDigit c = true

theorem appendDigits_append (n : Nat) (ds es : List Char) :
    appendDigits n (ds ++ es) = appendDigits (appendDigits n ds) es :=
  List.foldl_append

private theorem digitValue_digitChar : ∀ d < 10, digitValue (Nat.digitChar d) = d := by decide

private theorem digitChar_ne_zero : ∀ d < 10, 0 < d → Nat.digitChar d ≠ '0' := by decide

/-- A number comes back from its decimal digits. -/
theorem appendDigits_toDigits (n : Nat) : appendDigits 0 (Nat.toDigits 10 n) = n := by
  induction n using Nat.strongRecOn with
  | ind n ih =>
    by_cases h : n < 10
    · rw [Nat.toDigits_of_lt_base h]
      simp [appendDigits, digitValue_digitChar n h]
    · rw [Nat.toDigits_of_base_le (by decide) (by omega), appendDigits_append,
        ih (n / 10) (by omega)]
      simp only [appendDigits, List.foldl_cons, List.foldl_nil,
        digitValue_digitChar (n % 10) (by omega)]
      omega

theorem isDecimalDigit_of_mem_toDigits {n : Nat} {c : Char} (h : c ∈ Nat.toDigits 10 n) :
    isDecimalDigit c = true :=
  Nat.isDigit_of_mem_toDigits (by decide) (by decide) h

/-- Only zero is spelled with a leading zero. -/
theorem exists_toDigits_of_pos {n : Nat} (h : 0 < n) :
    ∃ c r, Nat.toDigits 10 n = c :: r ∧ c ≠ '0' := by
  induction n using Nat.strongRecOn with
  | ind n ih =>
    by_cases hn : n < 10
    · exact ⟨_, [], Nat.toDigits_of_lt_base hn, digitChar_ne_zero n hn h⟩
    · obtain ⟨c, r, hr, hc⟩ := ih (n / 10) (by omega) (by omega)
      refine ⟨c, r ++ [Nat.digitChar (n % 10)], ?_, hc⟩
      rw [Nat.toDigits_of_base_le (by decide) (by omega), hr, List.cons_append]

end Number

namespace Json
open Number

/-- A run of digits ends where the text goes on with something else. -/
theorem spanDigits_digits {ds r : List Char} (hd : ∀ c ∈ ds, isDecimalDigit c = true)
    (hr : continuesDigits r = false) : spanDigits (ds ++ r) = (ds, r) := by
  have stop : r.takeWhile isDecimalDigit = [] ∧ r.dropWhile isDecimalDigit = r := by
    cases r with
    | nil => exact ⟨rfl, rfl⟩
    | cons c r =>
      change isDecimalDigit c = false at hr
      simp [hr]
  rw [spanDigits, List.takeWhile_append_of_pos hd, List.dropWhile_append_of_pos hd, stop.1, stop.2,
    List.append_nil]

theorem spanDigits_toDigits (n : Nat) {r : List Char} (hr : continuesDigits r = false) :
    spanDigits (Nat.toDigits 10 n ++ r) = (Nat.toDigits 10 n, r) :=
  spanDigits_digits (fun _ => isDecimalDigit_of_mem_toDigits) hr

theorem readWhole?_toDigits (n : Nat) {r : List Char} (hr : continuesDigits r = false) :
    readWhole? (Nat.toDigits 10 n ++ r) = some (n, r) := by
  rcases Nat.eq_zero_or_pos n with rfl | hn
  · rfl
  · have hspan := spanDigits_toDigits n hr
    have hvalue := appendDigits_toDigits n
    obtain ⟨c, ds, hds, hc⟩ := exists_toDigits_of_pos hn
    rw [hds] at hspan hvalue ⊢
    rw [List.cons_append] at hspan ⊢
    rw [readWhole?, hspan]
    · simp [hvalue]
    · intro t ht
      exact hc (List.cons.inj ht).1

theorem readFraction?_digits {ds r : List Char} (hne : ds ≠ [])
    (hd : ∀ c ∈ ds, isDecimalDigit c = true) (hr : continuesDigits r = false) :
    readFraction? ('.' :: (ds ++ r)) = some (ds, r) := by
  simp [readFraction?, spanDigits_digits hd hr, hne]

theorem readFraction?_none {r : List Char} (hr : ∀ t, r ≠ '.' :: t) :
    readFraction? r = some ([], r) := by
  rw [readFraction?]
  exact hr

theorem readExponent?_toDigits (e : Int) {r : List Char} (hr : continuesDigits r = false) :
    readExponent? ('e' :: (if e < 0 then '-' else '+') :: (Nat.toDigits 10 e.natAbs ++ r)) =
      some (some e, r) := by
  have hspan := spanDigits_toDigits e.natAbs hr
  have hvalue := appendDigits_toDigits e.natAbs
  have hne : (Nat.toDigits 10 e.natAbs).isEmpty = false :=
    List.isEmpty_eq_false_iff.2 Nat.toDigits_ne_nil
  by_cases he : e < 0
  · have hneg : -(e.natAbs : Int) = e := by omega
    rw [if_pos he, readExponent?]
    simp only [beq_self_eq_true, Bool.true_or, if_true, readSign, hspan, hvalue, hne, hneg,
      Bool.false_eq_true, if_false]
  · have hpos : (e.natAbs : Int) = e := by omega
    rw [if_neg he, readExponent?]
    simp only [beq_self_eq_true, Bool.true_or, if_true, readSign, hspan, hvalue, hne, hpos,
      Bool.false_eq_true, if_false]

theorem readExponent?_none {r : List Char} (hr : continuesNumber r = false) :
    readExponent? r = some (none, r) := by
  cases r with
  | nil => rfl
  | cons c r =>
    simp only [continuesNumber, Bool.or_eq_false_iff] at hr
    simp [readExponent?, hr.1.2, hr.2]

private def fractionText (digits : List Char) : List Char :=
  if digits.isEmpty then [] else '.' :: digits

private def exponentText : Option Int → List Char
  | none => []
  | some e => 'e' :: (if e < 0 then '-' else '+') :: Nat.toDigits 10 e.natAbs

private theorem readExponent?_text (e : Option Int) {r : List Char}
    (hr : continuesNumber r = false) : readExponent? (exponentText e ++ r) = some (e, r) := by
  cases e with
  | none => exact readExponent?_none hr
  | some e => exact readExponent?_toDigits e (continuesDigits_of_continuesNumber hr)

private theorem exponentText_stops (e : Option Int) {r : List Char}
    (hr : continuesNumber r = false) :
    continuesDigits (exponentText e ++ r) = false ∧ ∀ t, exponentText e ++ r ≠ '.' :: t := by
  cases e with
  | none =>
    refine ⟨continuesDigits_of_continuesNumber hr, ?_⟩
    rintro t rfl
    cases hr
  | some e =>
    refine ⟨rfl, fun t ht => ?_⟩
    cases (List.cons.inj ht).1

private theorem readFraction?_text {digits r : List Char} (e : Option Int)
    (hd : ∀ c ∈ digits, isDecimalDigit c = true) (hr : continuesNumber r = false) :
    readFraction? (fractionText digits ++ (exponentText e ++ r)) =
      some (digits, exponentText e ++ r) := by
  obtain ⟨hdigits, hpoint⟩ := exponentText_stops e hr
  cases digits with
  | nil => exact readFraction?_none hpoint
  | cons d digits => exact readFraction?_digits (List.cons_ne_nil _ _) hd hdigits

private theorem fractionText_stops (digits : List Char) (e : Option Int) {r : List Char}
    (hr : continuesNumber r = false) :
    continuesDigits (fractionText digits ++ (exponentText e ++ r)) = false := by
  cases digits with
  | nil => exact (exponentText_stops e hr).1
  | cons d digits => rfl

private theorem write_eq (n : Number) :
    n.write = (if n.negative then ['-'] else []) ++ Nat.toDigits 10 n.whole ++
      fractionText n.fraction ++ exponentText n.exponent := by
  obtain ⟨negative, whole, fraction, exponent⟩ := n
  cases exponent <;> rfl

/-- A number starts with its sign or with a digit. -/
theorem exists_write_eq (n : Number) :
    ∃ c r, n.write = c :: r ∧ (c = '-' ∨ isDecimalDigit c = true) := by
  obtain ⟨negative, whole, fraction, exponent⟩ := n
  cases negative with
  | true => exact ⟨'-', _, rfl, .inl rfl⟩
  | false =>
    obtain ⟨c, r, hr⟩ := List.exists_cons_of_ne_nil (Nat.toDigits_ne_nil (n := whole) (b := 10))
    have hc : c ∈ Nat.toDigits 10 whole := by
      rw [hr]
      exact List.mem_cons_self
    refine ⟨c, r ++ fractionText fraction ++ exponentText exponent, ?_,
      .inr (isDecimalDigit_of_mem_toDigits hc)⟩
    rw [write_eq, hr]
    rfl

/-- Reading a number takes its whole spelling and no more. -/
theorem readNumber?_write {n : Number} (hn : n.WellSpelled) {r : List Char}
    (hr : continuesNumber r = false) : readNumber? (n.write ++ r) = some (n, r) := by
  have hwrite : n.write ++ r = (if n.negative then ['-'] else []) ++ (Nat.toDigits 10 n.whole ++
      (fractionText n.fraction ++ (exponentText n.exponent ++ r))) := by
    rw [write_eq, List.append_assoc, List.append_assoc, List.append_assoc]
  have hwhole := readWhole?_toDigits n.whole (fractionText_stops n.fraction n.exponent hr)
  have hfraction := readFraction?_text n.exponent hn hr
  have hexponent := readExponent?_text n.exponent hr
  rw [hwrite]
  cases hneg : n.negative with
  | true =>
    change readNumber? ('-' :: (Nat.toDigits 10 n.whole ++ _)) = _
    rw [readNumber?]
    simp only [hwhole, hfraction, hexponent, Option.bind_eq_bind, Option.bind_some]
    cases n
    cases hneg
    rfl
  | false =>
    obtain ⟨c, ds, hds⟩ := List.exists_cons_of_ne_nil (Nat.toDigits_ne_nil (n := n.whole) (b := 10))
    have hc : isDecimalDigit c = true :=
      isDecimalDigit_of_mem_toDigits (n := n.whole) (by rw [hds]; exact List.mem_cons_self)
    rw [hds] at hwhole ⊢
    change readNumber? (c :: (ds ++ _)) = _
    rw [List.cons_append] at hwhole
    rw [readNumber?]
    · simp only [hwhole, hfraction, hexponent, Option.bind_eq_bind, Option.bind_some]
      cases n
      cases hneg
      rfl
    · intro t ht
      obtain ⟨rfl, -⟩ := List.cons.inj ht
      cases hc

end Json
end Reconciler
