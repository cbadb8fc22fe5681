/-! Edit scripts between two lists: what stays, what goes and what comes. -/
namespace Reconciler

/-- One step of an edit script. Additions come in runs. -/
inductive Edit (α : Type)
  | keep (x : α)
  | remove (x : α)
  | add (xs : List α)
deriving DecidableEq

namespace Edit
variable {α : Type}

def before : List (Edit α) → List α
  | [] => []
  | .keep x :: es => x :: before es
  | .remove x :: es => x :: before es
  | .add _ :: es => before es

def after : List (Edit α) → List α
  | [] => []
  | .keep x :: es => x :: after es
  | .remove _ :: es => after es
  | .add xs :: es => xs ++ after es

/-- Reorder each region between kept items: its additions first, then its removals, or the other
way round. -/
def regroup (addsFirst : Bool) : List (Edit α) → List (Edit α) → List (Edit α) → List (Edit α)
  | adds, removes, [] => flush adds removes
  | adds, removes, .keep x :: es => flush adds removes ++ .keep x :: regroup addsFirst [] [] es
  | adds, removes, .remove x :: es => regroup addsFirst adds (removes ++ [.remove x]) es
  | adds, removes, .add xs :: es => regroup addsFirst (adds ++ [.add xs]) removes es
where
  flush (adds removes : List (Edit α)) : List (Edit α) :=
    if addsFirst then adds ++ removes else removes ++ adds

end Edit
end Reconciler
