import Reconciler.Json.Reader

/-! The values a declaration holds: scalars, texts, lists, and blocks of named values. -/
namespace Reconciler

/-- Floats are finite. Infinities and what is not a number are spelled by no state file and are left
out: nothing that is said of all values is said of them. -/
inductive Value
  | bool (b : Bool)
  | int (i : Int64)
  | float (x : Binary64)
  | string (s : String)
  | list (items : List Value)
  | map (block : Ascending Value none)

abbrev Block := OrderedMap Value

namespace Value

def typeName : Value → String
  | .bool _ => "bool"
  | .int _ => "int"
  | .float _ => "float"
  | .string _ => "string"
  | .list _ => "list"
  | .map _ => "map"

def asText? : Value → Option String
  | .string s => some s
  | _ => none

def isEmpty : Value → Bool
  | .bool b => !b
  | .int i => i == 0
  | .float x => x.isZero
  | .string s => s.isEmpty
  | .list items => items.isEmpty
  | .map block => block.isEmpty

mutual
/-- Equality of type and content. An integer never equals a float, and the two float zeros are
equal. -/
def same : Value → Value → Bool
  | .bool a, .bool b => a == b
  | .int a, .int b => a == b
  | .float a, .float b => a.same b
  | .string a, .string b => a == b
  | .list a, .list b => sameItems a b
  | .map a, .map b => sameEntries a b
  | _, _ => false

def sameItems : List Value → List Value → Bool
  | [], [] => true
  | a :: as, b :: bs => same a b && sameItems as bs
  | _, _ => false

def sameEntries {b c : Option String} : Ascending Value b → Ascending Value c → Bool
  | .nil, .nil => true
  | .cons k _ v r, .cons k' _ v' r' => k == k' && same v v' && sameEntries r r'
  | _, _ => false
end

mutual
def toJson : Value → Json
  | .bool b => .bool b
  | .int i => .int i.toInt
  | .float x => .number (.ofBinary64 x)
  | .string s => .text s
  | .list items => .array (itemsToJson items)
  | .map block => .object (entriesToJson block)

def itemsToJson : List Value → List Json
  | [] => []
  | v :: vs => v.toJson :: itemsToJson vs

def entriesToJson {b : Option String} : Ascending Value b → List (Option String × Json)
  | .nil => []
  | .cons k _ v r => (some k, v.toJson) :: entriesToJson r
end

def ofNumber? (n : Number) : Option Value :=
  match (Json.number n).toInt64? with
  | some i => some (.int i)
  | none => n.toBinary64?.map .float

mutual
/-- The value that a JSON text spells. Values have no tag: the spelling decides the type, and
there is none for `null`. -/
def ofJson? : Json → Option Value
  | .null => none
  | .bool b => some (.bool b)
  | .number n => ofNumber? n
  | .string s => s.map .string
  | .array items => (itemsOfJson? items).map .list
  | .object members => (entriesOfJson? members).map fun entries => .map (OrderedMap.ofList entries)

def itemsOfJson? : List Json → Option (List Value)
  | [] => some []
  | j :: js => do return (← ofJson? j) :: (← itemsOfJson? js)

def entriesOfJson? : List (Option String × Json) → Option (List (String × Value))
  | [] => some []
  | (name, j) :: ms => do
    let name ← name
    return (name, ← ofJson? j) :: (← entriesOfJson? ms)
end

end Value

namespace Block

def toJson (block : Block) : Json := .object (Value.entriesToJson block)

def ofJson? : Json → Option Block
  | .object members => (Value.entriesOfJson? members).map OrderedMap.ofList
  | _ => none

end Block
end Reconciler
