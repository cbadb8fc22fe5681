import Reconciler.Json.Basic

/-! Giving JSON a type: scalars, lists, and records whose members are known by name. -/
namespace Reconciler.Json

def toText? : Json → Option String
  | .string s => s
  | _ => none

def toBool? : Json → Option Bool
  | .bool b => some b
  | _ => none

def toInt? : Json → Option Int
  | .number n => n.toInt?
  | _ => none

def toIntIn? (low high : Int) (j : Json) : Option Int :=
  j.toInt?.filter fun i => low ≤ i && i ≤ high

def toInt64? (j : Json) : Option Int64 :=
  (j.toIntIn? (-0x8000000000000000) 0x7FFFFFFFFFFFFFFF).map Int64.ofInt
def toUInt64? (j : Json) : Option UInt64 :=
  (j.toIntIn? 0 0xFFFFFFFFFFFFFFFF).map fun i => UInt64.ofNat i.toNat
def toUInt32? (j : Json) : Option UInt32 :=
  (j.toIntIn? 0 0xFFFFFFFF).map fun i => UInt32.ofNat i.toNat
def toUInt16? (j : Json) : Option UInt16 :=
  (j.toIntIn? 0 0xFFFF).map fun i => UInt16.ofNat i.toNat

def toBinary64? : Json → Option Binary64
  | .number n => n.toBinary64?
  | _ => none

def toList? {α : Type} (item : Json → Option α) : Json → Option (List α)
  | .array items => items.mapM item
  | _ => none

def toOption? {α : Type} (value : Json → Option α) : Json → Option (Option α)
  | .null => some none
  | j => (value j).map some

/-- The members of a record that are known by name. Members with other names do not matter, but a
known one must not come twice. A record may also be the array of its first values, in order. -/
def members? (names : List String) : Json → Option (List (String × Json))
  | .object members => do
    let members ← members.mapM fun m => m.1.map fun name => (name, m.2)
    let known := members.filter fun m => names.contains m.1
    if (known.map Prod.fst).Nodup then some known else none
  | .array items => if items.length ≤ names.length then some (names.zip items) else none
  | _ => none

def optional {α : Type} (members : List (String × Json)) (name : String)
    (value : Json → Option α) (missing : α) : Option α :=
  match members.lookup name with
  | none => some missing
  | some j => value j

def required {α : Type} (members : List (String × Json)) (name : String)
    (value : Json → Option α) : Option α :=
  members.lookup name >>= value

/-- A choice without content: its name, or the record of its name with `null`. -/
def choice? : Json → Option (String × Json)
  | .string s => s.map fun s => (s, .null)
  | .object [(name, j)] => name.map fun name => (name, j)
  | _ => none

mutual
/-- The standard form of free JSON: members in the order of their names, the last of several with
one name, and numbers as an integer of 64 bits or as a double. -/
def standard? : Json → Option Json
  | .null => some .null
  | .bool b => some (.bool b)
  | .number n =>
    match (Json.number n).toIntIn? (-0x8000000000000000) 0xFFFFFFFFFFFFFFFF with
    | some i => some (.int i)
    | none => n.toBinary64?.map fun x => .number (.ofBinary64 x)
  | .string s => s.map .text
  | .array items => (standardItems? items).map .array
  | .object members =>
    (standardMembers? members).map fun ms => .record (OrderedMap.ofList ms).toList

def standardItems? : List Json → Option (List Json)
  | [] => some []
  | j :: js => do return (← standard? j) :: (← standardItems? js)

def standardMembers? : List (Option String × Json) → Option (List (String × Json))
  | [] => some []
  | (name, j) :: ms => do
    let name ← name
    return (name, ← standard? j) :: (← standardMembers? ms)
end

def toFree? (j : Json) : Option Json := if j.nesting ≤ nestingLimit then j.standard? else none

end Reconciler.Json
