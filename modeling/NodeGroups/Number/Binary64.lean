/-!
# Binary numbers of 64 bits

A finite number of the format is a mantissa below `2 ^ 53` times a power of two, with a sign
that a zero has as well. What is not of this form is rounded once to the nearest that is, and
of two equally near to the one with the even mantissa; past the largest there is none. Infinite
values and values that are no number do not occur.
-/
namespace NodeGroups

structure Binary64 where
  negative : Bool
  mantissa : Nat
  exponent : Int
deriving DecidableEq, Repr

namespace Binary64

def lowestExponent : Int := -1074

def highestExponent : Int := 971

def zero : Binary64 := ⟨false, 0, lowestExponent⟩

def isZero (x : Binary64) : Bool := x.mantissa = 0

def signed (negative : Bool) (x : Binary64) : Binary64 := { x with negative := negative }

/-- The whole number nearest to a fraction, the even one if two are. -/
def nearest (num den : Nat) : Nat :=
  let whole := num / den
  let twice := 2 * (num % den)
  if twice < den then whole
  else if den < twice then whole + 1
  else if whole % 2 = 0 then whole
  else whole + 1

/-- The fraction times a power of two. -/
def scaled (num den : Nat) (e : Int) : Nat × Nat :=
  (num * Nat.pow 2 e.toNat, den * Nat.pow 2 (-e).toNat)

/-- The power of two that is to be taken out of a fraction: it leaves a whole part of 53 bits,
or of fewer where the format goes no lower. -/
def exponentOf (num den : Nat) : Int :=
  let guess : Int := (num.log2 : Int) - den.log2 - 52
  let (n, d) := scaled num den (-guess)
  max lowestExponent (if n < d * Nat.pow 2 52 then guess - 1 else guess)

/-- The number nearest to a fraction, if the fraction is not past the largest. -/
def ofFraction? (num den : Nat) : Option Binary64 :=
  if num = 0 then some zero
  else
    let e := exponentOf num den
    let (n, d) := scaled num den (-e)
    let m := nearest n d
    let (m, e) := if m = Nat.pow 2 53 then (Nat.pow 2 52, e + 1) else (m, e)
    if highestExponent < e then none else some ⟨false, m, e⟩

def times? (x y : Binary64) : Option Binary64 :=
  let (n, d) := scaled (x.mantissa * y.mantissa) 1 (x.exponent + y.exponent)
  (ofFraction? n d).map (signed (x.negative != y.negative))

/-- The quotient; a divisor of zero counts as one too small to be told from it. -/
def over? (x y : Binary64) : Option Binary64 :=
  if y.isZero then none
  else
    let (n, d) := scaled x.mantissa y.mantissa (x.exponent - y.exponent)
    (ofFraction? n d).map (signed (x.negative != y.negative))

end Binary64
end NodeGroups
