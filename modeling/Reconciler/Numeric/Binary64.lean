/-! Finite binary64 numbers, and the one nearest to a decimal. Infinities and what is not a number
are left out: no JSON text spells them. -/
namespace Reconciler

/-- How many places share an exponent: 2 to the power of 52. -/
abbrev placesPerBinade : Nat := 0x10000000000000

/-- A sign and the place of a magnitude in the ascending row of the finite magnitudes: place 0 is
zero, and the next place holds the next larger magnitude. -/
structure Binary64 where
  negative : Bool
  place : Nat
  finite : place < 2047 * placesPerBinade
deriving DecidableEq

namespace Binary64

def significand (x : Binary64) : Nat :=
  if x.place < placesPerBinade then x.place
  else placesPerBinade + x.place % placesPerBinade

def exponent (x : Binary64) : Int :=
  if x.place < placesPerBinade then -1074 else (x.place / placesPerBinade : Nat) - 1075

def zero (negative : Bool) : Binary64 := ⟨negative, 0, by decide⟩

def isZero (x : Binary64) : Bool := x.place == 0

def same (x y : Binary64) : Bool := x == y || (x.isZero && y.isZero)

def roundDiv (num den : Nat) : Nat :=
  let q := num / den
  match compare (2 * (num % den)) den with
  | .lt => q
  | .gt => q + 1
  | .eq => if q % 2 = 0 then q else q + 1

def inUnits (num den : Nat) (e : Int) : Nat × Nat :=
  (num * Nat.pow 2 (-e).toNat, den * Nat.pow 2 e.toNat)

/-- The place nearest to `num / den` if the row went on for ever. -/
def placeOfRatio (num den : Nat) : Nat :=
  let guess : Int := (num.log2 : Int) - (den.log2 : Int) - 52
  let (n, d) := inUnits num den guess
  let e := max (-1074) (if n < d * placesPerBinade then guess - 1 else guess)
  let (n, d) := inUnits num den e
  roundDiv n d + (e + 1074).toNat * placesPerBinade

def ofPlace? (negative : Bool) (place : Nat) : Option Binary64 :=
  if h : place < 2047 * placesPerBinade then some ⟨negative, place, h⟩ else none

/-- The double nearest to `± mantissa * 10 ^ scale`; none when that is beyond the finite ones.
Scales far outside the range are decided by the number of digits alone. -/
def ofDecimal? (negative : Bool) (mantissa : Nat) (scale : Int) : Option Binary64 :=
  if mantissa = 0 then some (zero negative)
  else
    let size := ((Nat.toDigits 10 mantissa).length : Int) + scale
    if size > 310 then none
    else if size < -330 then some (zero negative)
    else
      ofPlace? negative
        (placeOfRatio (mantissa * Nat.pow 10 scale.toNat) (Nat.pow 10 (-scale).toNat))

def ofInt? (i : Int) : Option Binary64 := ofDecimal? (i < 0) i.natAbs 0

end Binary64
end Reconciler
