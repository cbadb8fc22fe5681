import Reconciler.Diff.Basic

/-! Myers' linear-space difference: the shortest edit script, found by halving at the middle of a
shortest path through the edit graph. A point `(x, y)` of the graph stands behind `x` items of the
old list and `y` of the new one, on the diagonal `x - y`. -/
namespace Reconciler.Myers
variable {α : Type} [DecidableEq α]

def agreement : List α → List α → Nat
  | a :: as, b :: bs => if a = b then agreement as bs + 1 else 0
  | _, _ => 0

/-- The last step of a furthest path: a run of equal items along a diagonal. Both ends are given
by their old coordinate. -/
structure Snake where
  diagonal : Int
  start : Nat
  stop : Nat

/-- Where snakes start, from where those of the round before stopped; diagonals descend. A step
that adds is taken only when the diagonal above is strictly ahead. -/
def starts : List Nat → List Nat
  | [] => [0]
  | top :: rest => (top + 1) :: inner top rest
where
  inner : Nat → List Nat → List Nat
    | above, [] => [above]
    | above, below :: rest => (if below < above then above else below + 1) :: inner below rest

/-- The furthest paths with `d` edits, on the diagonals `d, d - 2, …, -d`. -/
def round (a b : List α) (d : Nat) (stops : List Nat) : List Snake :=
  (starts stops).zipIdx.map fun (x, i) =>
    let k : Int := (d : Int) - 2 * i
    ⟨k, x, x + agreement (a.drop x) (b.drop (x - k).toNat)⟩

def stopOn (d k : Int) (stops : List Nat) : Nat := stops.getD ((d - k) / 2).toNat 0

def meeting? (delta : Int) (oldLength : Nat) (d : Int) (opposite : List Nat) (snakes : List Snake) :
    Option Snake :=
  snakes.find? fun s =>
    (s.diagonal - delta).natAbs ≤ d && oldLength ≤ s.stop + stopOn d (delta - s.diagonal) opposite

/-- A point on a shortest path, about half-way. Paths from both corners grow in turn, and by the
parity of `delta` only one of the directions can be the one that completes a path. -/
def middle? (a b : List α) : Option (Nat × Nat) :=
  search ((a.length + b.length + 1) / 2 + 1) 0 [] []
where
  search : Nat → Nat → List Nat → List Nat → Option (Nat × Nat)
    | 0, _, _, _ => none
    | fuel + 1, d, forward, backward =>
      let delta := (a.length : Int) - b.length
      let odd := delta % 2 ≠ 0
      let ahead := round a b d forward
      match if odd then meeting? delta a.length (d - 1) backward ahead else none with
      | some s => some (s.start, (s.start - s.diagonal).toNat)
      | none =>
        let behind := round a.reverse b.reverse d backward
        let forward := ahead.map (·.stop)
        match if odd then none else meeting? delta a.length d forward behind with
        | some s => some (a.length - s.stop, b.length - (s.stop - s.diagonal).toNat)
        | none => search fuel (d + 1) forward (behind.map (·.stop))

/-- An edit script. A fuel above the sum of the lengths is enough. -/
def script : Nat → List α → List α → List (Edit α)
  | 0, a, b => a.map .remove ++ [.add b]
  | fuel + 1, a, b =>
    let common := agreement a b
    let front := a.take common
    let a := a.drop common
    let b := b.drop common
    let tail := agreement a.reverse b.reverse
    let back := a.drop (a.length - tail)
    let a := a.take (a.length - tail)
    let b := b.take (b.length - tail)
    let core :=
      match a, b with
      | [], [] => []
      | a, [] => a.map .remove
      | [], b => [.add b]
      | a, b =>
        match middle? a b with
        | some (x, y) => script fuel (a.take x) (b.take y) ++ script fuel (a.drop x) (b.drop y)
        | none => a.map .remove ++ [.add b]
    front.map .keep ++ core ++ back.map .keep

end Reconciler.Myers
