import Reconciler.Json.Basic

/-! Writing JSON texts, on one line or indented. -/
namespace Reconciler

/-- What a layout puts between the tokens of arrays and objects: `gap depth` before each item and
before a closing bracket, and `colon` after a member's name. -/
structure Layout where
  gap : Nat → List Char
  colon : List Char

def Layout.compact : Layout := ⟨fun _ => [], [':']⟩

def Layout.pretty : Layout := ⟨fun depth => '\n' :: List.replicate (2 * depth) ' ', [':', ' ']⟩

def Number.write (n : Number) : List Char :=
  (if n.negative then ['-'] else []) ++ Nat.toDigits 10 n.whole ++
    (if n.fraction.isEmpty then [] else '.' :: n.fraction) ++
    match n.exponent with
    | none => []
    | some e => 'e' :: (if e < 0 then '-' else '+') :: Nat.toDigits 10 e.natAbs

namespace Json

def hexDigit (n : Nat) : Char := Nat.digitChar (n % 16)

def writeChar (c : Char) : List Char :=
  match c with
  | '"' => ['\\', '"']
  | '\\' => ['\\', '\\']
  | '\x08' => ['\\', 'b']
  | '\t' => ['\\', 't']
  | '\n' => ['\\', 'n']
  | '\x0c' => ['\\', 'f']
  | '\r' => ['\\', 'r']
  | c =>
    if c.toNat < 0x20 then ['\\', 'u', '0', '0', hexDigit (c.toNat / 16), hexDigit c.toNat]
    else [c]

def writeText (s : List Char) : List Char := '"' :: (s.flatMap writeChar ++ ['"'])

/-- A literal without a text is written as one unpaired surrogate. -/
def writeLiteral : Option String → List Char
  | some s => writeText s.toList
  | none => ['"', '\\', 'u', 'd', '8', '0', '0', '"']

mutual
def write (layout : Layout) (depth : Nat) : Json → List Char
  | .null => ['n', 'u', 'l', 'l']
  | .bool true => ['t', 'r', 'u', 'e']
  | .bool false => ['f', 'a', 'l', 's', 'e']
  | .number n => n.write
  | .string s => writeLiteral s
  | .array items =>
    match items with
    | [] => ['[', ']']
    | j :: js =>
      '[' :: (layout.gap (depth + 1) ++ write layout (depth + 1) j ++
        writeItems layout (depth + 1) js ++ layout.gap depth ++ [']'])
  | .object members =>
    match members with
    | [] => ['\x7b', '\x7d']
    | (name, j) :: ms =>
      '\x7b' :: (layout.gap (depth + 1) ++ writeLiteral name ++ layout.colon ++
        write layout (depth + 1) j ++ writeMembers layout (depth + 1) ms ++ layout.gap depth ++
        ['\x7d'])

def writeItems (layout : Layout) (depth : Nat) : List Json → List Char
  | [] => []
  | j :: js => ',' :: (layout.gap depth ++ write layout depth j ++ writeItems layout depth js)

def writeMembers (layout : Layout) (depth : Nat) : List (Option String × Json) → List Char
  | [] => []
  | (name, j) :: ms =>
    ',' :: (layout.gap depth ++ writeLiteral name ++ layout.colon ++ write layout depth j ++
      writeMembers layout depth ms)
end

def compact (j : Json) : String := .ofList (j.write .compact 0)
def pretty (j : Json) : String := .ofList (j.write .pretty 0)

end Json
end Reconciler
