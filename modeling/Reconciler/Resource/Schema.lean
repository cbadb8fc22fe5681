import Reconciler.Declared.Reading
import Reconciler.Json.Reader

/-! What makes up a kind: its record, its remote document, and the way between them. -/
namespace Reconciler

structure Schema where
  Record : Type
  Document : Type
  materialize : DeclaredState → Except TypeMismatch Record
  project : Record → DeclaredState → DeclaredState
  naturalKey : Record → String
  /-- The declared key that a record lacks to be written, if it lacks one. -/
  missing? : Record → Option String
  toDocument : Record → Document
  ofDocument : String → Document → Record
  /-- The document that returns the resource to its defaults. -/
  defaults : Document
  encode : Document → Json
  decode? : Json → Option Document

def unlessEmpty (name : String) (value : String) : List (String × Json) :=
  if value = "" then [] else [(name, .text value)]

end Reconciler
