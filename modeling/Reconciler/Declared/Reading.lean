import Reconciler.Declared.Conversion
import Reconciler.Declared.State

/-! Reading declared values at a static type, and saying where one does not fit. -/
namespace Reconciler

/-- A value whose type does not fit. The key is dotted for a value inside a block. -/
structure TypeMismatch where
  key : String
  expected : String
  found : String
deriving DecidableEq

def TypeMismatch.message (e : TypeMismatch) : String :=
  s!"type mismatch at '{e.key}': expected {e.expected}, found {e.found}"

/-- Typed access to a block. `path` leads to a nested block and is none at the top. -/
structure Reading where
  block : Block
  path : Option String

namespace Reading

def ofState (s : DeclaredState) : Reading := ⟨s.values, none⟩

def nested (block : Block) (path : String) : Reading := ⟨block, some path⟩

def qualified (r : Reading) (key : String) : String :=
  match r.path with
  | none => key
  | some path => path ++ "." ++ key

/-- The value under `key` at type `α`, or the zero of `α` when the key is absent. -/
def get (α : Type) [OfValue α] (r : Reading) (key : String) : Except TypeMismatch α :=
  match r.block.get? key with
  | none => .ok OfValue.zero
  | some v =>
    match ofValue? v with
    | some x => .ok x
    | none => .error ⟨r.qualified key, OfValue.typeName α, v.typeName⟩

/-- Read the items of a list of blocks in order, the first of them at `path.index`. -/
def items {α : Type} (path : String) (read : Reading → Except TypeMismatch α) :
    Nat → List Value → Except TypeMismatch (List α)
  | _, [] => .ok []
  | index, v :: vs =>
    let place := path ++ "." ++ toString index
    match v with
    | .map block => do
      let x ← read (.nested block place)
      let xs ← items path read (index + 1) vs
      return x :: xs
    | v => .error ⟨place, "map", v.typeName⟩

def blocks {α : Type} (r : Reading) (key : String) (read : Reading → Except TypeMismatch α) :
    Except TypeMismatch (List α) :=
  match r.block.get? key with
  | none => .ok []
  | some (.list values) => items (r.qualified key) read 0 values
  | some v => .error ⟨r.qualified key, "list", v.typeName⟩

end Reading
end Reconciler
