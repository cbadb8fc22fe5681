import Reconciler.Declared.State

/-! A declared resource of a batch: the tag of its kind, and its state. -/
namespace Reconciler

structure Entry where
  kind : String
  state : DeclaredState

namespace Entry

def toJson (e : Entry) : Json := .record [("kind", .text e.kind), ("state", e.state.toJson)]

/-- Read an entry that may nest at most `room` deep. -/
def ofJson? (room : Nat) (j : Json) : Option Entry := do
  let members ← j.members? ["kind", "state"]
  let kind ← Json.required members "kind" Json.toText?
  let state ← Json.optional members "state" (DeclaredState.ofJson? (room - 1)) .empty
  return ⟨kind, state⟩

def listToJson (entries : List Entry) : Json := .array (entries.map toJson)

def listOfJson? (room : Nat) : Json → Option (List Entry) := Json.toList? (ofJson? (room - 1))

end Entry
end Reconciler
