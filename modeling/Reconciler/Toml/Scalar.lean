import Reconciler.Numeric.Binary64
import Reconciler.Json.Basic
import Reconciler.Text.Classes
import Reconciler.Time.Calendar
import Reconciler.Toml.Basic

/-! TOML values without quotes: booleans, integers, floats and points in time. -/
namespace Reconciler.Toml

def isScalarChar (c : Char) : Bool :=
  c.isAlphanum || c == '+' || c == '-' || c == '_' || c == '.' || c == ':'

def digits? (isDigit : Char → Bool) : List Char → Option (List Char)
  | [] => none
  | [c] => if isDigit c then some [c] else none
  | c :: '_' :: r => if isDigit c then (digits? isDigit r).map (c :: ·) else none
  | c :: r => if isDigit c then (digits? isDigit r).map (c :: ·) else none

def splitSign : List Char → Bool × List Char
  | '-' :: r => (true, r)
  | '+' :: r => (false, r)
  | r => (false, r)

def decimal? (s : List Char) : Option (List Char) :=
  (digits? isDecimalDigit s).filter fun ds => ds.head? ≠ some '0' || ds.length == 1

def inBase? (base : Nat) (s : List Char) : Option Nat := do
  let ds ← digits? (fun c => ((hexValue? c).map fun d => decide (d < base)).getD false) s
  return ds.foldl (fun n c => base * n + (hexValue? c).getD 0) 0

/-- Integers have at most 128 bits. Other bases than ten have no sign. -/
def integer? (s : List Char) : Option Toml := do
  let i : Int ← match s with
    | '0' :: 'x' :: r => (inBase? 16 r).map Int.ofNat
    | '0' :: 'o' :: r => (inBase? 8 r).map Int.ofNat
    | '0' :: 'b' :: r => (inBase? 2 r).map Int.ofNat
    | s =>
      let (negative, r) := splitSign s
      (decimal? r).map fun ds =>
        let n : Int := Number.appendDigits 0 ds
        if negative then -n else n
  if -(Nat.pow 2 127 : Int) ≤ i ∧ i < Nat.pow 2 128 then some (.integer i) else none

def isExponentMark (c : Char) : Bool := c == 'e' || c == 'E'

def isDecimalFloat (s : List Char) : Bool :=
  let (_, s) := splitSign s
  let body := s.takeWhile fun c => !isExponentMark c
  let tail := s.dropWhile fun c => !isExponentMark c
  let whole := body.takeWhile (· ≠ '.')
  let fraction := body.dropWhile (· ≠ '.')
  let finite : Option Unit := do
    let wholeDigits ← decimal? whole
    let fractionDigits ← match fraction with
      | [] => some []
      | _ :: r => digits? isDecimalDigit r
    let exponent : Int ← match tail with
      | [] => some 0
      | _ :: r =>
        let (negative, r) := splitSign r
        (digits? isDecimalDigit r).map fun ds =>
          let n : Int := Number.appendDigits 0 ds
          if negative then -n else n
    let _ ← Binary64.ofDecimal? false (Number.appendDigits 0 (wholeDigits ++ fractionDigits))
      (exponent - fractionDigits.length)
    return ()
  (!fraction.isEmpty || !tail.isEmpty) && finite.isSome

def isFloat (s : List Char) : Bool :=
  let (_, r) := splitSign s
  r == ['i', 'n', 'f'] || r == ['n', 'a', 'n'] || isDecimalFloat s

def fixedDigits? (width : Nat) (s : List Char) : Option (Nat × List Char) :=
  let ds := s.take width
  if ds.length = width && ds.all isDecimalDigit then
    some (Number.appendDigits 0 ds, s.drop width)
  else none

def expect? (c : Char) : List Char → Option (List Char)
  | d :: r => if d = c then some r else none
  | [] => none

def date? (s : List Char) : Option (List Char) := do
  let (year, s) ← fixedDigits? 4 s
  let (month, s) ← expect? '-' s >>= fixedDigits? 2
  let (day, s) ← expect? '-' s >>= fixedDigits? 2
  if 1 ≤ month ∧ month ≤ 12 ∧ 1 ≤ day ∧ day ≤ daysInMonth year month then some s else none

def time? (s : List Char) : Option (List Char) := do
  let (hour, s) ← fixedDigits? 2 s
  let (minute, s) ← expect? ':' s >>= fixedDigits? 2
  if hour > 23 ∨ minute > 59 then none
  else
    match s with
    | ':' :: s =>
      let (second, s) ← fixedDigits? 2 s
      if second > 60 then none
      else
        match s with
        | '.' :: s =>
          if (s.takeWhile isDecimalDigit).isEmpty then none else some (s.dropWhile isDecimalDigit)
        | s => some s
    | s => some s

def isOffset (s : List Char) : Bool :=
  match s with
  | ['Z'] | ['z'] => true
  | sign :: r =>
    let offset : Option Bool := do
      let (hours, r) ← fixedDigits? 2 r
      let (minutes, r) ← expect? ':' r >>= fixedDigits? 2
      return r.isEmpty && hours ≤ 23 && minutes ≤ 59
    (sign == '+' || sign == '-') && offset.getD false
  | [] => false

def isMoment (s : List Char) : Bool :=
  let moment : Option Bool :=
    match date? s with
    | none => (time? s).map List.isEmpty
    | some [] => some true
    | some (separator :: r) => do
      let r ← time? r
      return (separator == 'T' || separator == 't' || separator == ' ') && (r.isEmpty || isOffset r)
  moment.getD false

def scalar? (s : List Char) : Option Toml :=
  if s = ['t', 'r', 'u', 'e'] then some (.boolean true)
  else if s = ['f', 'a', 'l', 's', 'e'] then some (.boolean false)
  else if isMoment s then some .moment
  else if isFloat s then some .float
  else integer? s

/-- A value without quotes in front. A blank may stand between a date and a time of day. -/
def readScalar? (s : List Char) : Option (Toml × List Char) := do
  let run := s.takeWhile isScalarChar
  let rest := s.dropWhile isScalarChar
  let joined := match rest with
    | ' ' :: r =>
      let time := r.takeWhile isScalarChar
      if (date? run).any List.isEmpty && time.head?.any isDecimalDigit then
        (run ++ ' ' :: time, r.dropWhile isScalarChar)
      else (run, rest)
    | _ => (run, rest)
  return (← scalar? joined.1, joined.2)

end Reconciler.Toml
