import Reconciler.Diff.Myers

/-! The difference of two texts by lines, with additions moved to where they read best. -/
namespace Reconciler.Diff
variable {α : Type} [DecidableEq α]

/-- Move a run of additions up as far as it goes: over kept items that equal its last one, over
removals, and into other additions. What lies before is given in reverse. -/
def moveUp : List (Edit α) → List α → List (Edit α) → List (Edit α) × List α × List (Edit α)
  | [], run, rest => ([], run, rest)
  | .add xs :: before, run, rest => moveUp before (xs ++ run) rest
  | .remove x :: before, run, rest => moveUp before run (.remove x :: rest)
  | .keep x :: before, run, rest =>
    if run.getLast? = some x then moveUp before (x :: run.dropLast) (.keep x :: rest)
    else (.keep x :: before, run, rest)

def moveDown : List (Edit α) → List α → List (Edit α) → List (Edit α) × List α × List (Edit α)
  | before, run, [] => (before, run, [])
  | before, run, .add xs :: rest => moveDown before (run ++ xs) rest
  | before, run, .remove x :: rest => moveDown (.remove x :: before) run rest
  | before, run, .keep x :: rest =>
    if run.head? = some x then moveDown (.keep x :: before) (run.drop 1 ++ [x]) rest
    else (before, run, .keep x :: rest)

def settle : Nat → List (Edit α) → List (Edit α) → List (Edit α)
  | 0, before, rest => before.reverse ++ rest
  | _ + 1, before, [] => before.reverse
  | fuel + 1, before, .add run :: rest =>
    let (before, run, rest) := moveUp before run rest
    let (before, run, rest) := moveDown before run rest
    settle fuel (.add run :: before) rest
  | fuel + 1, before, e :: rest => settle fuel (e :: before) rest

/-- The edit script from `a` to `b`. In a changed region removals come before additions. -/
def edits (a b : List α) : List (Edit α) :=
  let script := Edit.regroup true [] [] (Myers.script (a.length + b.length + 1) a b)
  Edit.regroup false [] [] (settle ((script.length + 1) * (script.length + 1)) [] script)

def splitLines : List Char → List Char → List String
  | line, [] => [.ofList line.reverse]
  | line, '\n' :: r => .ofList line.reverse :: splitLines [] r
  | line, c :: r => splitLines (c :: line) r

def lines (s : String) : List String := splitLines [] s.toList

end Reconciler.Diff
