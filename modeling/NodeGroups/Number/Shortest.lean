import NodeGroups.Number.Binary64

/-!
# The shortest decimal of a binary number

The reals that round to a number are an interval around it, with its ends if the mantissa is
even. Of the decimals in the interval the one with the fewest digits stands for the number, of
several the nearest, and of two equally near the even one. It is found on the coarsest grid of
a power of ten that has a point in the interval: if any point of the grid is in it, one of the
two next to the number is.
-/
namespace NodeGroups

/-- The number `digits · 10 ^ exponent`. -/
structure DecimalNumber where
  digits : Nat
  exponent : Int
deriving DecidableEq, Repr

namespace Binary64

/-- The lower end of the interval in quarters of the last place. Below a power of two numbers
are twice as dense, so that the end is nearer. -/
def lowerQuarters (x : Binary64) : Nat :=
  if x.mantissa = Nat.pow 2 52 ∧ lowestExponent < x.exponent then 4 * x.mantissa - 1
  else 4 * x.mantissa - 2

def upperQuarters (x : Binary64) : Nat := 4 * x.mantissa + 2

/-- A quarter of the last place and the step of a grid, in a unit that both are whole in. -/
def weights (x : Binary64) (k : Int) : Nat × Nat :=
  let e := x.exponent - 2
  (Nat.pow 2 e.toNat * Nat.pow 10 (-k).toNat, Nat.pow 10 k.toNat * Nat.pow 2 (-e).toNat)

/-- Whether a point of the grid of `10 ^ k` rounds to the number. -/
def readsBack (x : Binary64) (k : Int) (point : Nat) : Bool :=
  let (quarter, step) := x.weights k
  let low := x.lowerQuarters * quarter
  let high := x.upperQuarters * quarter
  if x.mantissa % 2 = 0 then low ≤ point * step && point * step ≤ high
  else low < point * step && point * step < high

/-- The point of the grid of `10 ^ k` that stands for the number, if one rounds to it. -/
def onGrid? (x : Binary64) (k : Int) : Option Nat :=
  let (quarter, step) := x.weights k
  let middle := 4 * x.mantissa * quarter
  let below := middle / step
  let above := below + 1
  match x.readsBack k below, x.readsBack k above with
  | false, false => none
  | true, false => some below
  | false, true => some above
  | true, true =>
    if 2 * middle < (below + above) * step then some below
    else if (below + above) * step < 2 * middle then some above
    else if below % 2 = 0 then some below
    else some above

/-- The decimal that is the number exactly. -/
def exactly (x : Binary64) : DecimalNumber :=
  if 0 ≤ x.exponent then ⟨x.mantissa * Nat.pow 2 x.exponent.toNat, 0⟩
  else ⟨x.mantissa * Nat.pow 5 (-x.exponent).toNat, x.exponent⟩

/-- The grids from the coarsest that a number can lie on to the finest that one needs. -/
def grids : List Int := (List.range 634).map fun (i : Nat) => 309 - (i : Int)

/-- The shortest decimal without its sign. -/
def shortest (x : Binary64) : DecimalNumber :=
  if x.isZero then ⟨0, 0⟩
  else (grids.findSome? fun k => (x.onGrid? k).map fun point => ⟨point, k⟩).getD x.exactly

end Binary64
end NodeGroups
