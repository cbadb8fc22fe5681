import Mathlib.Data.List.TakeWhile
import Reconciler.Proofs.Json.Number
import Reconciler.Proofs.Time.Calendar
import Reconciler.Time.Timestamp

/-! A point in time comes back from its text, whatever its year and however fine its fraction, leap
seconds included. -/
namespace Reconciler.Timestamp
open Number

section Padded

theorem isBlank_of_isDecimalDigit {c : Char} (h : isDecimalDigit c = true) :
    Text.isBlank c = false := by
  simp only [isDecimalDigit, Bool.and_eq_true, decide_eq_true_eq, Char.le_def,
    UInt32.le_iff_toNat_le] at h
  have hlow : 48 ≤ c.toNat := h.1
  have hhigh : c.toNat ≤ 57 := h.2
  simp only [Text.isBlank, Bool.or_eq_false_iff, Bool.and_eq_false_iff, decide_eq_false_iff_not,
    beq_eq_false_iff_ne]
  omega

theorem skip_cons {c : Char} (h : Text.isBlank c = false) (r : List Char) :
    skip (c :: r) = c :: r :=
  List.dropWhile_cons_of_neg (by simp [h])

theorem takeWhile_digits {ds r : List Char} (hds : ∀ c ∈ ds, isDecimalDigit c = true)
    (hr : continuesDigits r = false) : (ds ++ r).takeWhile isDecimalDigit = ds :=
  congrArg Prod.fst (Json.spanDigits_digits hds hr)

theorem dropWhile_digits {ds r : List Char} (hds : ∀ c ∈ ds, isDecimalDigit c = true)
    (hr : continuesDigits r = false) : (ds ++ r).dropWhile isDecimalDigit = r :=
  congrArg Prod.snd (Json.spanDigits_digits hds hr)

theorem appendDigits_zeros (n k : Nat) :
    appendDigits n (List.replicate k '0') = n * 10 ^ k := by
  induction k generalizing n with
  | zero => simp [appendDigits]
  | succ k ih =>
    have hstep : appendDigits n (List.replicate (k + 1) '0') =
        appendDigits (10 * n) (List.replicate k '0') := rfl
    rw [hstep, ih, Nat.pow_succ]
    ac_rfl

variable (width n : Nat)

theorem toList_padded : (padded width n).toList =
    List.replicate (width - (Nat.toDigits 10 n).length) '0' ++ Nat.toDigits 10 n := by
  rw [padded, String.toList_ofList]

theorem toList_append_padded {sign : String} {c : Char} (h : sign.toList = [c]) :
    (sign ++ padded width n).toList = c :: (padded width n).toList := by
  rw [String.toList_append, h, List.singleton_append]

/-- Zeros in front do not change a number. -/
theorem appendDigits_padded : appendDigits 0 (padded width n).toList = n := by
  rw [toList_padded, appendDigits_append, appendDigits_zeros, Nat.zero_mul, appendDigits_toDigits]

theorem isDecimalDigit_of_mem_padded {c : Char} (h : c ∈ (padded width n).toList) :
    isDecimalDigit c = true := by
  rw [toList_padded, List.mem_append] at h
  rcases h with h | h
  · rw [List.eq_of_mem_replicate h]
    rfl
  · exact isDecimalDigit_of_mem_toDigits h

theorem exists_padded_eq_cons : ∃ c r, (padded width n).toList = c :: r ∧
    isDecimalDigit c = true := by
  have hne : (padded width n).toList ≠ [] := by
    rw [toList_padded]
    exact List.append_ne_nil_of_right_ne_nil _ Nat.toDigits_ne_nil
  obtain ⟨c, r, h⟩ := List.exists_cons_of_ne_nil hne
  exact ⟨c, r, h, isDecimalDigit_of_mem_padded width n (h ▸ List.mem_cons_self)⟩

variable {width n}

/-- A number of few enough digits is padded to the full width. -/
theorem length_padded (hwidth : 0 < width) (h : n < 10 ^ width) :
    (padded width n).toList.length = width := by
  have hle := (Nat.length_toDigits_le_iff (b := 10) (by decide) hwidth).2 h
  rw [toList_padded, List.length_append, List.length_replicate]
  omega

variable (width n) in
theorem skip_padded (r : List Char) :
    skip ((padded width n).toList ++ r) = (padded width n).toList ++ r := by
  obtain ⟨c, t, h, hc⟩ := exists_padded_eq_cons width n
  rw [h, List.cons_append, skip_cons (isBlank_of_isDecimalDigit hc)]

/-- A number is read to its last digit, as long as it has no more digits than allowed. -/
theorem readNumber?_padded {most : Nat} (hmost : (padded width n).toList.length ≤ most)
    {r : List Char} (hr : continuesDigits r = false) :
    readNumber? most ((padded width n).toList ++ r) = some (n, r) := by
  have hdigits := takeWhile_digits (fun _ => isDecimalDigit_of_mem_padded width n) hr
  obtain ⟨c, t, h, -⟩ := exists_padded_eq_cons width n
  have hne : (padded width n).toList.isEmpty = false := by rw [h]; rfl
  simp only [readNumber?, skip_padded width n, hdigits, List.take_of_length_le hmost, hne,
    List.drop_left, appendDigits_padded, Bool.false_eq_true, if_false]

theorem readNumberIn?_padded {low high : Nat} (hlow : low ≤ n) (hhigh : n ≤ high)
    (hn : n < 100) {r : List Char} (hr : continuesDigits r = false) :
    readNumberIn? low high ((padded 2 n).toList ++ r) = some (n, r) := by
  rw [readNumberIn?, readNumber?_padded (length_padded (by decide) hn).le hr]
  simp [hlow, hhigh]

end Padded

section Parts

private theorem readYear?_unsigned {s r : List Char} {c : Char} (h : skip s = c :: r)
    (hc : isDecimalDigit c = true) :
    readYear? s = (readNumber? 4 (c :: r)).map fun p => ((p.1 : Int), p.2) := by
  rw [readYear?, h]
  split
  · next heq =>
    cases heq
    cases hc
  · next heq =>
    cases heq
    cases hc
  · rfl

/-- A year is read back, signed or not. -/
theorem readYear?_yearText (year : Int) {r : List Char} (hr : continuesDigits r = false) :
    readYear? ((yearText year).toList ++ r) = some (year, r) := by
  rw [yearText]
  split
  · next hyear =>
    obtain ⟨c, t, hct, hc⟩ := exists_padded_eq_cons 4 year.toNat
    have hlength : (padded 4 year.toNat).toList.length ≤ 4 :=
      (length_padded (by decide) (by omega)).le
    have hskip := skip_padded 4 year.toNat r
    have hread := readNumber?_padded hlength hr
    rw [hct, List.cons_append] at hskip hread ⊢
    rw [readYear?_unsigned hskip hc, hread, Option.map_some, Int.toNat_of_nonneg hyear.1]
  · next hyear =>
    have hskip := skip_padded 4 year.natAbs r
    have hlength : (padded 4 year.natAbs).toList.length ≤
        ((padded 4 year.natAbs).toList ++ r).length := by simp
    have hread := readNumber?_padded hlength hr
    split
    · next hnegative =>
      have hback : -(year.natAbs : Int) = year := by omega
      rw [toList_append_padded 4 _ (c := '-') rfl, List.cons_append, readYear?, skip_cons rfl]
      simp only [hskip, if_true, hread, Option.map_some, hback]
    · next hpositive =>
      have hback : (year.natAbs : Int) = year := by omega
      rw [toList_append_padded 4 _ (c := '+') rfl, List.cons_append, readYear?, skip_cons rfl]
      simp only [hskip, if_true, hread, Option.map_some, hback]

/-- Digits that a fraction does without are zeros. -/
private theorem readFraction?_padded {width n : Nat} (hwidth : 0 < width) (hle : width ≤ 9)
    (h : n < 10 ^ width) : readFraction? ('.' :: ((padded width n).toList ++ ['Z'])) =
      some (n * 10 ^ (9 - width), ['Z']) := by
  have hend : continuesDigits ['Z'] = false := rfl
  have hdigits := takeWhile_digits (fun _ => isDecimalDigit_of_mem_padded width n) hend
  have hrest := dropWhile_digits (fun _ => isDecimalDigit_of_mem_padded width n) hend
  have hlength := length_padded hwidth h
  have hne : (padded width n).toList.isEmpty = false := by
    rw [List.isEmpty_eq_false_iff, ← List.length_pos_iff]
    omega
  simp only [readFraction?, hdigits, hrest, hne, Bool.false_eq_true, if_false, List.take_append,
    hlength, List.take_of_length_le (hlength.trans_le hle), List.take_replicate,
    appendDigits_append, appendDigits_padded, appendDigits_zeros,
    Nat.min_eq_left (Nat.sub_le 9 width)]

/-- A fraction comes back from its text. -/
theorem readFraction?_fractionText {nanosecond : Nat} (h : nanosecond < 1000000000) :
    readFraction? ((fractionText nanosecond).toList ++ ['Z']) = some (nanosecond, ['Z']) := by
  have hdigits (width n : Nat) (hwidth : 0 < width) (hle : width ≤ 9) (hn : n < 10 ^ width)
      (heq : n * 10 ^ (9 - width) = nanosecond) :
      readFraction? (("." ++ padded width n).toList ++ ['Z']) = some (nanosecond, ['Z']) := by
    rw [toList_append_padded width n (c := '.') rfl, List.cons_append, ← heq]
    exact readFraction?_padded hwidth hle hn
  unfold fractionText
  split
  · next hzero =>
    rw [hzero]
    rfl
  split
  · exact hdigits 3 _ (by decide) (by decide) (by omega) (by omega)
  split
  · exact hdigits 6 _ (by decide) (by decide) (by omega) (by omega)
  · exact hdigits 9 _ (by decide) (by decide) h (by omega)

end Parts

theorem expect?_cons {c : Char} (h : Text.isBlank c = false) (r : List Char) :
    expect? c (c :: r) = some r := by
  rw [expect?, skip_cons h]
  exact if_pos rfl

theorem expect?_bind {α : Type} {c : Char} (h : Text.isBlank c = false) (r : List Char)
    (f : List Char → Option α) : expect? c (c :: r) >>= f = f r := by
  rw [expect?_cons h]
  rfl

theorem toList_text (t : Timestamp) : t.text.toList =
    (yearText t.date.1).toList ++ '-' :: ((padded 2 t.date.2.1).toList ++
      '-' :: ((padded 2 t.date.2.2).toList ++ 'T' ::
        ((padded 2 (t.second.val / 3600)).toList ++
          ':' :: ((padded 2 (t.second.val / 60 % 60)).toList ++
            ':' :: ((padded 2 (t.second.val % 60 + t.nanosecond.val / 1000000000)).toList ++
              ((fractionText (t.nanosecond.val % 1000000000)).toList ++ ['Z'])))))) := by
  have hyphen : "-".toList = ['-'] := rfl
  have colon : ":".toList = [':'] := rfl
  have clock : "T".toList = ['T'] := rfl
  have utc : "Z".toList = ['Z'] := rfl
  simp only [text, String.toList_append, List.append_assoc, hyphen, colon, clock, utc,
    List.cons_append, List.nil_append]

theorem nanosecond_lt (t : Timestamp) : t.nanosecond.val < 1000000000 ∨
    t.second.val % 60 = 59 ∧ t.nanosecond.val < 2000000000 := by
  have h := t.nanosecond.isLt
  unfold nanosecondsOf at h
  split at h
  · next hlast => exact .inr ⟨hlast, h⟩
  · exact .inl h

/-- The second of a minute that a leap second is written as, and what it stands for. -/
theorem leap_written (t : Timestamp) :
    (if t.second.val % 60 + t.nanosecond.val / 1000000000 = 60 then
        (59, t.nanosecond.val % 1000000000 + 1000000000)
      else (t.second.val % 60 + t.nanosecond.val / 1000000000, t.nanosecond.val % 1000000000)) =
      (t.second.val % 60, t.nanosecond.val) := by
  have h := t.nanosecond_lt
  split <;> simp only [Prod.mk.injEq] <;> omega

theorem continuesDigits_fractionText (nanosecond : Nat) :
    continuesDigits ((fractionText nanosecond).toList ++ ['Z']) = false := by
  have hpoint (width n : Nat) :
      continuesDigits (("." ++ padded width n).toList ++ ['Z']) = false := by
    rw [toList_append_padded width n (c := '.') rfl, List.cons_append]
    rfl
  unfold fractionText
  split
  · rfl
  split
  · exact hpoint 3 _
  split
  · exact hpoint 6 _
  · exact hpoint 9 _

/-- The parts of a time make it up again. -/
theorem ofDay?_firstDay_add (t : Timestamp) :
    ofDay? (firstDay + t.day.val) t.second t.nanosecond.val = some t := by
  have hday := t.day.isLt
  have hback : (firstDay + (t.day.val : Int) - firstDay).toNat = t.day.val := by omega
  rw [ofDay?, dif_pos (by omega), dif_pos t.nanosecond.isLt]
  simp only [hback]

section Known
variable {year : Int} {month day : Nat} (h : IsDate year month day)
include h

/-- Only known years have days from the first one on. -/
theorem dayOfDate_lt_firstDay (hyear : year < -262143) : dayOfDate year month day < firstDay := by
  have hday' := h.day_le_thirtyOne
  obtain ⟨hmonth, hmonth', hday, -⟩ := h
  -- the years of the era of the first known one are told apart by how far they are into it
  have hera (y : Int) (hy : y ≤ -262144) :
      y / 400 ≤ -657 ∨ y / 400 = -656 ∧ (y ≤ -262145 ∨ y = -262144) := by omega
  simp only [dayOfDate, firstDay]
  split
  · rcases hera (year - 1) (by omega) with hera | ⟨hera, hy | hy⟩ <;> omega
  · rcases hera year (by omega) with hera | ⟨hera, hy | rfl⟩ <;> omega

/-- Dates of later years are beyond the last known day. -/
theorem firstDay_add_le_dayOfDate (hyear : 262142 < year) :
    firstDay + knownDays ≤ dayOfDate year month day := by
  obtain ⟨hmonth, hmonth', hday, -⟩ := h
  have hera (y : Int) (hy : 262142 ≤ y) :
      656 ≤ y / 400 ∨ y / 400 = 655 ∧ (262143 ≤ y ∨ y = 262142) := by omega
  have hend : firstDay + knownDays = 95026237 := by decide
  rw [hend]
  simp only [dayOfDate]
  split
  · rcases hera (year - 1) (by omega) with hera | ⟨hera, hy | hy⟩
    · omega
    · omega
    · rw [hy]
      omega
  · rcases hera year (by omega) with hera | ⟨hera, hy | rfl⟩ <;> omega

end Known

/-- A time has a date of a known year. -/
theorem isKnownYear_date (t : Timestamp) : isKnownYear t.date.1 = true := by
  have hdate := isDate_dateOfDay (firstDay + t.day.val)
  have hback := dayOfDate_dateOfDay (firstDay + t.day.val)
  have hday := t.day.isLt
  have hlow : ¬t.date.1 < -262143 := fun h => by
    have hlt := dayOfDate_lt_firstDay hdate h
    omega
  have hhigh : ¬262142 < t.date.1 := fun h => by
    have hle := firstDay_add_le_dayOfDate hdate h
    omega
  simp only [isKnownYear, Bool.and_eq_true, decide_eq_true_eq]
  omega

section Written
variable {year : Int} {month day hour minute second nanosecond : Nat}

/-- A date and a time of day are read as the point in time they stand for. -/
private theorem parseChars?_written (hmonth : 1 ≤ month ∧ month ≤ 12) (hday : 1 ≤ day ∧ day ≤ 31)
    (hhour : hour ≤ 23) (hminute : minute ≤ 59) (hsecond : second ≤ 60)
    (hnanosecond : nanosecond < 1000000000) (hyear : isKnownYear year = true)
    (hlast : day ≤ daysInMonth year month) {t : Timestamp} {last : Nat}
    (hleap : (if second = 60 then (59, nanosecond + 1000000000) else (second, nanosecond)) =
      (last, t.nanosecond.val))
    (hutc : dayOfDate year month day * 86400 + hour * 3600 + minute * 60 + last =
      (firstDay + t.day.val) * 86400 + t.second.val) :
    parseChars? ((yearText year).toList ++ '-' :: ((padded 2 month).toList ++
      '-' :: ((padded 2 day).toList ++ 'T' :: ((padded 2 hour).toList ++
        ':' :: ((padded 2 minute).toList ++ ':' :: ((padded 2 second).toList ++
          ((fractionText nanosecond).toList ++ ['Z']))))))) = some t := by
  have hoffset : readOffset? ['Z'] = some (0, []) := rfl
  have hend : (skip []).isEmpty = true := rfl
  have hclock : ((firstDay + t.day.val) * 86400 + (t.second.val : Int)) / 86400 =
        firstDay + t.day.val ∧
      (((firstDay + t.day.val) * 86400 + (t.second.val : Int)) % 86400).toNat = t.second.val := by
    have hsecond := t.second.isLt
    omega
  refine Option.bind_eq_some_iff.2 ⟨_, readYear?_yearText year (r := '-' :: _) rfl, ?_⟩
  refine Option.bind_eq_some_iff.2 ⟨_, (expect?_bind rfl _ _).trans
    (readNumberIn?_padded hmonth.1 hmonth.2 (by omega) (r := '-' :: _) rfl), ?_⟩
  refine Option.bind_eq_some_iff.2 ⟨_, (expect?_bind rfl _ _).trans
    (readNumberIn?_padded hday.1 hday.2 (by omega) (r := 'T' :: _) rfl), ?_⟩
  dsimp only
  rw [if_pos (.inr (.inl rfl))]
  refine Option.bind_eq_some_iff.2 ⟨_, rfl, ?_⟩
  refine Option.bind_eq_some_iff.2 ⟨_,
    readNumberIn?_padded (Nat.zero_le _) hhour (by omega) (r := ':' :: _) rfl, ?_⟩
  refine Option.bind_eq_some_iff.2 ⟨_, (expect?_bind rfl _ _).trans
    (readNumberIn?_padded (Nat.zero_le _) hminute (by omega) (r := ':' :: _) rfl), ?_⟩
  refine Option.bind_eq_some_iff.2 ⟨_, (expect?_bind rfl _ _).trans
    (readNumberIn?_padded (Nat.zero_le _) hsecond (by omega)
      (continuesDigits_fractionText _)), ?_⟩
  refine Option.bind_eq_some_iff.2 ⟨_, readFraction?_fractionText hnanosecond, ?_⟩
  refine Option.bind_eq_some_iff.2 ⟨_, hoffset, ?_⟩
  simp only [hleap, hutc, Int.sub_zero, hclock.1, hclock.2, hend, hyear, Nat.not_lt.2 hlast,
    decide_false, Bool.not_true, Bool.or_false, Bool.false_eq_true, if_false]
  exact t.ofDay?_firstDay_add

end Written

/-- A time is read back from its text. -/
theorem parse?_text (t : Timestamp) : parse? t.text = some t := by
  have hdate := isDate_dateOfDay (firstDay + t.day.val)
  have hsecond := t.second.isLt
  have hnanosecond := t.nanosecond_lt
  have hutc : dayOfDate t.date.1 t.date.2.1 t.date.2.2 * 86400 +
      (t.second.val / 3600 : Nat) * 3600 + (t.second.val / 60 % 60 : Nat) * 60 +
      (t.second.val % 60 : Nat) = (firstDay + t.day.val) * 86400 + t.second.val := by
    rw [date, dayOfDate_dateOfDay]
    omega
  rw [parse?, toList_text]
  exact parseChars?_written ⟨hdate.month_pos, hdate.month_le⟩
    ⟨hdate.day_pos, hdate.day_le_thirtyOne⟩ (by omega) (by omega) (by omega) (by omega)
    t.isKnownYear_date hdate.day_le t.leap_written hutc

end Reconciler.Timestamp
