import Reconciler.Json.Parser
import Reconciler.Text.Classes
import Reconciler.Time.Calendar

/-! Points in time as RFC 3339 writes them, in a lenient reading and a canonical UTC spelling. -/
namespace Reconciler

namespace Timestamp

def isKnownYear (year : Int) : Bool := -262143 ≤ year && year ≤ 262142

def firstDay : Int := dayOfDate (-262143) 1 1

def knownDays : Nat := (dayOfDate 262143 1 1 - firstDay).toNat

-- the zero is named, so that the instance is the same under whatever is imported
instance : @NeZero Nat Zero.ofOfNat0 knownDays := ⟨by decide⟩

/-- The nanoseconds that begin in a second of the day. The last of a minute may be a leap second,
in which they go on past a full second. -/
def nanosecondsOf (second : Fin 86400) : Nat :=
  if second.val % 60 = 59 then 2000000000 else 1000000000

instance (second : Fin 86400) : @NeZero Nat Zero.ofOfNat0 (nanosecondsOf second) :=
  ⟨by unfold nanosecondsOf; split <;> decide⟩

end Timestamp

structure Timestamp where
  day : Fin Timestamp.knownDays
  second : Fin 86400
  nanosecond : Fin (Timestamp.nanosecondsOf second)
deriving DecidableEq

namespace Timestamp

/-- The point in time on a day counted from 1970-01-01, if there is one. -/
def ofDay? (day : Int) (second : Fin 86400) (nanosecond : Nat) : Option Timestamp :=
  if hday : firstDay ≤ day ∧ day < firstDay + knownDays then
    if hnanosecond : nanosecond < nanosecondsOf second then
      some ⟨⟨(day - firstDay).toNat, by omega⟩, second, ⟨nanosecond, hnanosecond⟩⟩
    else none
  else none

def date (t : Timestamp) : Int × Nat × Nat := dateOfDay (firstDay + t.day.val)

def skip (s : List Char) : List Char := s.dropWhile Text.isBlank

def readNumber? (most : Nat) (s : List Char) : Option (Nat × List Char) :=
  let s := skip s
  let digits := (s.takeWhile isDecimalDigit).take most
  if digits.isEmpty then none
  else some (Number.appendDigits 0 digits, s.drop digits.length)

def readNumberIn? (low high : Nat) (s : List Char) : Option (Nat × List Char) :=
  (readNumber? 2 s).filter fun r => low ≤ r.1 && r.1 ≤ high

def readYear? (s : List Char) : Option (Int × List Char) :=
  match skip s with
  | '-' :: r =>
    if (skip r).length = r.length then
      (readNumber? r.length r).map fun (n, r) => (-(n : Int), r)
    else none
  | '+' :: r =>
    if (skip r).length = r.length then
      (readNumber? r.length r).map fun (n, r) => ((n : Int), r)
    else none
  | s => (readNumber? 4 s).map fun (n, r) => ((n : Int), r)

def expect? (c : Char) (s : List Char) : Option (List Char) :=
  match skip s with
  | d :: r => if d = c then some r else none
  | [] => none

/-- A fraction of a second in nanoseconds; digits behind the ninth do not count. -/
def readFraction? : List Char → Option (Nat × List Char)
  | '.' :: s =>
    let digits := s.takeWhile isDecimalDigit
    if digits.isEmpty then none
    else
      let nine := (digits ++ List.replicate 9 '0').take 9
      some (Number.appendDigits 0 nine, s.dropWhile isDecimalDigit)
  | s => some (0, s)

def readTwoDigits? : List Char → Option (Nat × List Char)
  | a :: b :: r =>
    if isDecimalDigit a && isDecimalDigit b then some (Number.appendDigits 0 [a, b], r) else none
  | _ => none

def readOffset? (s : List Char) : Option (Int × List Char) := do
  let s := skip s
  if (s.take 3).map Char.toLower = ['u', 't', 'c'] then return (0, s.drop 3)
  match s with
  | [] => none
  | sign :: r =>
    if sign = 'Z' ∨ sign = 'z' then return (0, r)
    let direction : Int ←
      if sign = '+' then some 1 else if sign = '-' ∨ sign = '\u2212' then some (-1) else none
    let (hours, r) ← readTwoDigits? r
    let (minutes, r) ← readTwoDigits? (r.dropWhile fun c => c == ':' || Text.isBlank c)
    if minutes > 59 ∨ hours > 23 then none
    else return (direction * (hours * 3600 + minutes * 60 : Nat), r)

def parseChars? (s : List Char) : Option Timestamp := do
  let (year, s) ← readYear? s
  let (month, s) ← expect? '-' s >>= readNumberIn? 1 12
  let (day, s) ← expect? '-' s >>= readNumberIn? 1 31
  let s ← match s with
    | c :: r => if c = 't' ∨ c = 'T' ∨ c = ' ' then some r else none
    | [] => none
  let (hour, s) ← readNumberIn? 0 23 s
  let (minute, s) ← expect? ':' s >>= readNumberIn? 0 59
  let (second, s) ← expect? ':' s >>= readNumberIn? 0 60
  let (nanosecond, s) ← readFraction? s
  let (offset, s) ← readOffset? s
  if !(skip s).isEmpty || !isKnownYear year || day > daysInMonth year month then none
  else
    let (second, nanosecond) :=
      if second = 60 then (59, nanosecond + 1000000000) else (second, nanosecond)
    let local' : Int := dayOfDate year month day * 86400 + hour * 3600 + minute * 60 + second
    let utc := local' - offset
    ofDay? (utc / 86400) ⟨(utc % 86400).toNat, by omega⟩ nanosecond

def parse? (s : String) : Option Timestamp := parseChars? s.toList

def padded (width n : Nat) : String :=
  let digits := Nat.toDigits 10 n
  .ofList (List.replicate (width - digits.length) '0' ++ digits)

def yearText (year : Int) : String :=
  if 0 ≤ year ∧ year ≤ 9999 then padded 4 year.toNat
  else (if year < 0 then "-" else "+") ++ padded 4 year.natAbs

/-- The fraction in as few groups of three digits as are exact. -/
def fractionText (nanosecond : Nat) : String :=
  if nanosecond = 0 then ""
  else if nanosecond % 1000000 = 0 then "." ++ padded 3 (nanosecond / 1000000)
  else if nanosecond % 1000 = 0 then "." ++ padded 6 (nanosecond / 1000)
  else "." ++ padded 9 nanosecond

def text (t : Timestamp) : String :=
  let (year, month, day) := t.date
  let second := t.second.val
  let leap := t.nanosecond.val / 1000000000
  yearText year ++ "-" ++ padded 2 month ++ "-" ++ padded 2 day ++ "T" ++
    padded 2 (second / 3600) ++ ":" ++ padded 2 (second / 60 % 60) ++ ":" ++
    padded 2 (second % 60 + leap) ++ fractionText (t.nanosecond.val % 1000000000) ++ "Z"

end Timestamp
end Reconciler
