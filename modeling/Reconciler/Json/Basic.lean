import Reconciler.Data.OrderedMap
import Reconciler.Numeric.Shortest

/-! JSON texts as trees: what a text says, member by member, before any of it is given a type. -/
namespace Reconciler

/-- A number as it is spelled: `± whole . fraction e exponent`, the fraction in decimal digits. -/
structure Number where
  negative : Bool
  whole : Nat
  fraction : List Char
  exponent : Option Int
deriving DecidableEq

namespace Number

def ofInt (i : Int) : Number := ⟨i < 0, i.natAbs, [], none⟩

/-- The integer a number denotes, if it is spelled as one. Negative zero is no integer. -/
def toInt? (n : Number) : Option Int :=
  match n.fraction, n.exponent with
  | [], none => if n.negative then (if n.whole = 0 then none else some (-n.whole)) else some n.whole
  | _, _ => none

def digitValue (c : Char) : Nat := c.toNat - '0'.toNat

def appendDigits (n : Nat) (digits : List Char) : Nat :=
  digits.foldl (fun n c => 10 * n + digitValue c) n

def toBinary64? (n : Number) : Option Binary64 :=
  Binary64.ofDecimal? n.negative (appendDigits n.whole n.fraction)
    (n.exponent.getD 0 - n.fraction.length)

/-- The spelling of a double: its shortest digits, positional with at least one decimal from
`1e-5` up to `1e16`, and scientific with a signed exponent elsewhere. -/
def ofBinary64 (x : Binary64) : Number :=
  if x.isZero then ⟨x.negative, 0, ['0'], none⟩
  else
    let (c, k) := x.shortest
    let digits := Nat.toDigits 10 c
    let point := (digits.length : Int) + k
    if 0 ≤ k ∧ point ≤ 16 then ⟨x.negative, c * Nat.pow 10 k.toNat, ['0'], none⟩
    else if 0 < point ∧ point ≤ 16 then
      ⟨x.negative, appendDigits 0 (digits.take point.toNat), digits.drop point.toNat, none⟩
    else if -5 < point ∧ point ≤ 0 then
      ⟨x.negative, 0, List.replicate (-point).toNat '0' ++ digits, none⟩
    else ⟨x.negative, appendDigits 0 (digits.take 1), digits.drop 1, some (point - 1)⟩

end Number

/-- A JSON text. A string literal is the text it denotes, or none when it denotes no text: when it
escapes half of a surrogate pair, or holds bytes that are not well formed. Members stay in order,
repeated names included. -/
inductive Json
  | null
  | bool (b : Bool)
  | number (n : Number)
  | string (text : Option String)
  | array (items : List Json)
  | object (members : List (Option String × Json))

namespace Json

def int (i : Int) : Json := .number (.ofInt i)
def text (s : String) : Json := .string (some s)
def record (members : List (String × Json)) : Json :=
  .object (members.map fun m => (some m.1, m.2))

mutual
def nesting : Json → Nat
  | .array items => nestingOfItems items + 1
  | .object members => nestingOfMembers members + 1
  | _ => 0

def nestingOfItems : List Json → Nat
  | [] => 0
  | j :: js => max j.nesting (nestingOfItems js)

def nestingOfMembers : List (Option String × Json) → Nat
  | [] => 0
  | (_, j) :: ms => max j.nesting (nestingOfMembers ms)
end

def nestingLimit : Nat := 127

end Json
end Reconciler
