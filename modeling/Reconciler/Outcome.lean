import Reconciler.Json.Reader

/-! What lifecycle operations report: the result of a change, the presence a read observed, and
the counts of a batch. -/
namespace Reconciler

inductive ApplyResult
  | noChange
  | created
  | modified
  | removed
  /-- Only a batch reports a failure as a result. -/
  | failed (error : String)
deriving DecidableEq

namespace ApplyResult

def isSuccess : ApplyResult → Bool
  | .failed _ => false
  | _ => true

def isChange : ApplyResult → Bool
  | .created | .modified | .removed => true
  | _ => false

def toJson : ApplyResult → Json
  | .noChange => .text "NoChange"
  | .created => .text "Created"
  | .modified => .text "Modified"
  | .removed => .text "Removed"
  | .failed error => .record [("Failed", .record [("error", .text error)])]

def ofJson? (j : Json) : Option ApplyResult := do
  match ← j.choice? with
  | ("NoChange", .null) => some .noChange
  | ("Created", .null) => some .created
  | ("Modified", .null) => some .modified
  | ("Removed", .null) => some .removed
  | ("Failed", content) =>
    let members ← content.members? ["error"]
    return .failed (← Json.required members "error" Json.toText?)
  | _ => none

end ApplyResult

inductive Presence
  | present
  | absent
deriving DecidableEq

namespace Presence

def isPresent : Presence → Bool
  | .present => true
  | .absent => false

def toJson : Presence → Json
  | .present => .text "Present"
  | .absent => .text "Absent"

def ofJson? (j : Json) : Option Presence := do
  match ← j.choice? with
  | ("Present", .null) => some .present
  | ("Absent", .null) => some .absent
  | _ => none

end Presence

structure Summary where
  created : Nat
  modified : Nat
  removed : Nat
  failed : Nat
  noChange : Nat
deriving DecidableEq

namespace Summary

def empty : Summary := ⟨0, 0, 0, 0, 0⟩

def totalChanges (s : Summary) : Nat := s.created + s.modified + s.removed

def total (s : Summary) : Nat := s.created + s.modified + s.removed + s.failed + s.noChange

def isSuccess (s : Summary) : Bool := s.failed == 0

def add (s : Summary) : ApplyResult → Summary
  | .noChange => { s with noChange := s.noChange + 1 }
  | .created => { s with created := s.created + 1 }
  | .modified => { s with modified := s.modified + 1 }
  | .removed => { s with removed := s.removed + 1 }
  | .failed _ => { s with failed := s.failed + 1 }

def ofResults (results : List ApplyResult) : Summary := results.foldl add empty

def toJson (s : Summary) : Json :=
  .record [("created", .int s.created), ("modified", .int s.modified),
    ("removed", .int s.removed), ("failed", .int s.failed), ("no_change", .int s.noChange)]

def ofJson? (j : Json) : Option Summary := do
  let members ← j.members? ["created", "modified", "removed", "failed", "no_change"]
  let count (name : String) : Option Nat :=
    (Json.required members name Json.toUInt64?).map (·.toNat)
  return ⟨← count "created", ← count "modified", ← count "removed", ← count "failed",
    ← count "no_change"⟩

end Summary
end Reconciler
