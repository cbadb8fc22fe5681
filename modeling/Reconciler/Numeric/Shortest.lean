import Reconciler.Numeric.Binary64

/-! The shortest decimal that reads back as a given double. -/
namespace Reconciler.Binary64

/-- The reals that round to a double lie between `lower` and `upper`, the ends included when the
significand is even. All three points are in quarters of the last binary place. -/
structure RoundingInterval where
  lower : Nat
  middle : Nat
  upper : Nat
  closed : Bool

def roundingInterval (x : Binary64) : RoundingInterval :=
  let m := x.significand
  let below := if m = placesPerBinade ∧ x.exponent > -1074 then 1 else 2
  ⟨4 * m - below, 4 * m, 4 * m + 2, m % 2 = 0⟩

/-- The multiple of `10 ^ k` in the rounding interval that is nearest to the double, an even one
if two are. Only the two multiples around the double can be in it. -/
def onGrid? (x : Binary64) (k : Int) : Option Nat :=
  let r := x.roundingInterval
  let e := x.exponent - 2
  let perStep := Nat.pow 10 k.toNat * Nat.pow 2 (-e).toNat
  let perQuarter := Nat.pow 2 e.toNat * Nat.pow 10 (-k).toNat
  let inside (c : Nat) : Bool :=
    if r.closed then r.lower * perQuarter ≤ c * perStep && c * perStep ≤ r.upper * perQuarter
    else r.lower * perQuarter < c * perStep && c * perStep < r.upper * perQuarter
  let floor := r.middle * perQuarter / perStep
  let down := r.middle * perQuarter - floor * perStep
  let up := (floor + 1) * perStep - r.middle * perQuarter
  match inside floor, inside (floor + 1) with
  | true, true =>
    some (if down < up || (down == up && floor % 2 == 0) then floor else floor + 1)
  | true, false => some floor
  | false, true => some (floor + 1)
  | false, false => none

def firstGrid (x : Binary64) : Nat → Int → Nat × Int
  | 0, k => (0, k)
  | steps + 1, k =>
    match x.onGrid? k with
    | some c => (c, k)
    | none => x.firstGrid steps (k - 1)

/-- Digits `c` and scale `k` of the decimal `c * 10 ^ k` with the fewest digits that reads back as
the magnitude of a nonzero double. The search starts above its leading digit, and seventeen
digits always suffice. -/
def shortest (x : Binary64) : Nat × Int :=
  let leading := ((x.significand.log2 : Int) + x.exponent + 1) * 30103 / 100000
  x.firstGrid 24 (leading + 2)

end Reconciler.Binary64
