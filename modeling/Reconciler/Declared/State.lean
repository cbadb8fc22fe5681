import Reconciler.Declared.Value
import Reconciler.Json.Parser
import Reconciler.Json.Printer

/-! The declared state of one resource: its values by key, and its identity once it has one. -/
namespace Reconciler

structure DeclaredState where
  id : Option String
  values : Block

namespace DeclaredState

def empty : DeclaredState := ⟨none, OrderedMap.empty⟩

def get? (s : DeclaredState) (key : String) : Option Value := s.values.get? key

def set (s : DeclaredState) (key : String) (value : Value) : DeclaredState :=
  { s with values := s.values.insert key value }

def setId (s : DeclaredState) (id : String) : DeclaredState := { s with id := some id }

def clearId (s : DeclaredState) : DeclaredState := { s with id := none }

def hasId (s : DeclaredState) : Bool := s.id.isSome

def keys (s : DeclaredState) : List String := s.values.keys

def same (s t : DeclaredState) : Bool := s.id == t.id && Value.sameEntries s.values t.values

def toJson (s : DeclaredState) : Json :=
  .record ((s.id.map fun id => ("id", Json.text id)).toList ++ [("values", s.values.toJson)])

/-- Read a state that may nest at most `room` deep. -/
def ofJson? (room : Nat) (j : Json) : Option DeclaredState := do
  let members ← j.members? ["id", "values"]
  let id ← Json.optional members "id" (Json.toOption? Json.toText?) none
  let values ← Json.optional members "values"
    (fun v => if v.nesting < room then Block.ofJson? v else none) OrderedMap.empty
  return ⟨id, values⟩

def parse? (s : String) : Option DeclaredState := Json.parse? s >>= ofJson? Json.nestingLimit

def compact (s : DeclaredState) : String := s.toJson.compact
def pretty (s : DeclaredState) : String := s.toJson.pretty

end DeclaredState
end Reconciler
