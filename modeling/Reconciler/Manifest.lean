import Reconciler.Batch.Entry
import Reconciler.Time.Timestamp

/-! A manifest: many declared resources, and when they were last applied as a whole. -/
namespace Reconciler

structure Manifest where
  resources : List Entry
  lastApplied : Option Timestamp

namespace Manifest

def toJson (m : Manifest) : Json :=
  .record [("resources", Entry.listToJson m.resources),
    ("last_applied", (m.lastApplied.map fun t => Json.text t.text).getD .null)]

def ofJson? (room : Nat) (j : Json) : Option Manifest := do
  let members ← j.members? ["resources", "last_applied"]
  let resources ← Json.optional members "resources" (Entry.listOfJson? (room - 1)) []
  let lastApplied ← Json.optional members "last_applied"
    (Json.toOption? fun j => j.toText? >>= Timestamp.parse?) none
  return ⟨resources, lastApplied⟩

def parse? (s : String) : Option Manifest := Json.parse? s >>= ofJson? Json.nestingLimit

end Manifest
end Reconciler
