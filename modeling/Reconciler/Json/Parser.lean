import Reconciler.Json.Basic
import Reconciler.Text.Classes
import Reconciler.Text.Utf8

/-! Reading JSON texts as RFC 8259 spells them, with nothing after the value but blanks. -/
namespace Reconciler

namespace Json

def isBlank (c : Char) : Bool := c == ' ' || c == '\t' || c == '\n' || c == '\r'

def skipBlanks (s : List Char) : List Char := s.dropWhile isBlank

def spanDigits (s : List Char) : List Char × List Char :=
  (s.takeWhile isDecimalDigit, s.dropWhile isDecimalDigit)

def readWhole? : List Char → Option (Nat × List Char)
  | '0' :: r => some (0, r)
  | s =>
    let (digits, r) := spanDigits s
    if digits.isEmpty then none else some (Number.appendDigits 0 digits, r)

def readFraction? : List Char → Option (List Char × List Char)
  | '.' :: s =>
    let (digits, r) := spanDigits s
    if digits.isEmpty then none else some (digits, r)
  | s => some ([], s)

def readSign : List Char → Bool × List Char
  | '-' :: s => (true, s)
  | '+' :: s => (false, s)
  | s => (false, s)

def readExponent? : List Char → Option (Option Int × List Char)
  | c :: s =>
    if c == 'e' || c == 'E' then
      let (negative, s) := readSign s
      let (digits, r) := spanDigits s
      let size : Int := Number.appendDigits 0 digits
      if digits.isEmpty then none else some (some (if negative then -size else size), r)
    else some (none, c :: s)
  | [] => some (none, [])

def readNumber? (s : List Char) : Option (Number × List Char) := do
  let (negative, s) := match s with
    | '-' :: r => (true, r)
    | s => (false, s)
  let (whole, s) ← readWhole? s
  let (fraction, s) ← readFraction? s
  let (exponent, s) ← readExponent? s
  return (⟨negative, whole, fraction, exponent⟩, s)

def simpleEscape? : Char → Option Char
  | '"' => some '"'
  | '\\' => some '\\'
  | '/' => some '/'
  | 'b' => some '\x08'
  | 'f' => some '\x0c'
  | 'n' => some '\n'
  | 'r' => some '\r'
  | 't' => some '\t'
  | _ => none

/-- The code points and escaped units of a string literal, from behind its opening quote to its
closing one. -/
def readUnits? : List Char → Option (List Nat × List Char)
  | [] => none
  | '"' :: r => some ([], r)
  | '\\' :: 'u' :: a :: b :: c :: d :: r => do
    let unit ← hexNumber? [a, b, c, d]
    let (units, r) ← readUnits? r
    return (unit :: units, r)
  | '\\' :: e :: r => do
    let c ← simpleEscape? e
    let (units, r) ← readUnits? r
    return (c.toNat :: units, r)
  | c :: r =>
    if c.toNat < 0x20 then none
    else do
      let (units, r) ← readUnits? r
      return (c.toNat :: units, r)

/-- Join surrogate pairs; none if a surrogate has no partner. -/
def joinUnits? : List Nat → Option (List Char)
  | [] => some []
  | high :: rest =>
    if 0xD800 ≤ high ∧ high < 0xDC00 then
      match rest with
      | low :: rest =>
        if 0xDC00 ≤ low ∧ low < 0xE000 then do
          let cs ← joinUnits? rest
          return Char.ofNat (0x10000 + (high - 0xD800) * 0x400 + (low - 0xDC00)) :: cs
        else none
      | [] => none
    else if 0xDC00 ≤ high ∧ high < 0xE000 then none
    else do
      let cs ← joinUnits? rest
      return Char.ofNat high :: cs

def readLiteral? (s : List Char) : Option (Option String × List Char) := do
  let (units, r) ← readUnits? s
  return ((joinUnits? units).map .ofList, r)

mutual
/-- One value in front of the input. A fuel above the length of the input is enough. -/
def readValue? : Nat → List Char → Option (Json × List Char)
  | 0, _ => none
  | fuel + 1, s =>
    match skipBlanks s with
    | 'n' :: 'u' :: 'l' :: 'l' :: r => some (.null, r)
    | 't' :: 'r' :: 'u' :: 'e' :: r => some (.bool true, r)
    | 'f' :: 'a' :: 'l' :: 's' :: 'e' :: r => some (.bool false, r)
    | '"' :: r => do
      let (t, r) ← readLiteral? r
      return (.string t, r)
    | '[' :: r =>
      match skipBlanks r with
      | ']' :: r => some (.array [], r)
      | r => do
        let (j, r) ← readValue? fuel r
        let (js, r) ← readItems? fuel r
        return (.array (j :: js), r)
    | '\x7b' :: r =>
      match skipBlanks r with
      | '\x7d' :: r => some (.object [], r)
      | r => do
        let (m, r) ← readMember? fuel r
        let (ms, r) ← readMembers? fuel r
        return (.object (m :: ms), r)
    | r => do
      let (n, r) ← readNumber? r
      return (.number n, r)

def readItems? : Nat → List Char → Option (List Json × List Char)
  | 0, _ => none
  | fuel + 1, s =>
    match skipBlanks s with
    | ']' :: r => some ([], r)
    | ',' :: r => do
      let (j, r) ← readValue? fuel r
      let (js, r) ← readItems? fuel r
      return (j :: js, r)
    | _ => none

def readMember? : Nat → List Char → Option ((Option String × Json) × List Char)
  | 0, _ => none
  | fuel + 1, s =>
    match skipBlanks s with
    | '"' :: r => do
      let (name, r) ← readLiteral? r
      match skipBlanks r with
      | ':' :: r => do
        let (j, r) ← readValue? fuel r
        return ((name, j), r)
      | _ => none
    | _ => none

def readMembers? : Nat → List Char → Option (List (Option String × Json) × List Char)
  | 0, _ => none
  | fuel + 1, s =>
    match skipBlanks s with
    | '\x7d' :: r => some ([], r)
    | ',' :: r => do
      let (m, r) ← readMember? fuel r
      let (ms, r) ← readMembers? fuel r
      return (m :: ms, r)
    | _ => none
end

def parseChars? (s : List Char) : Option Json := do
  let (j, r) ← readValue? (2 * s.length + 2) s
  if (skipBlanks r).isEmpty then some j else none

def parse? (s : String) : Option Json := parseChars? s.toList

/-- Stands for bytes that are not well formed. They may occur where an escaped unit without a
partner may, in a string that is not read as text, and are spelled as one here. The letters keep
the unit from finding a partner behind it and from following a backslash. -/
def illFormed : List Char := ['x', '\\', 'u', 'd', '8', '0', '0', 'x']

def parseBytes? (bytes : List UInt8) : Option Json :=
  parseChars? ((Utf8.decodeFrom none bytes).flatMap fun c => c.elim illFormed fun c => [c])

end Json
end Reconciler
