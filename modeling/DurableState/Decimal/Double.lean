/-!
# DurableState.Decimal.Double — finite binary64 numbers, exactly

A finite double is a signed mantissa times a power of two. Sums are not needed here; products and
quotients are formed exactly and then rounded once to the nearest double, a half going to the even
mantissa.
-/

namespace DurableState

/-- The number `± mantissa * 2 ^ exponent`. In normal form the mantissa is below `2 ^ 53`, the
exponent is at least `-1074`, and one of the two cannot be made smaller. -/
structure Double where
  negative : Bool
  mantissa : Nat
  exponent : Int
deriving Repr, DecidableEq, Inhabited

namespace Double

/-- The exponent of the smallest positive double. -/
def minExponent : Int := -1074

/-- The exponent of the greatest double. -/
def maxExponent : Int := 971

/-- Zero with a sign. -/
def zero (negative : Bool) : Double := ⟨negative, 0, minExponent⟩

/-- Whether this is zero, of either sign. -/
def isZero (x : Double) : Bool := x.mantissa == 0

/-- Equality of numbers: the two zeros are equal, other doubles differ if written differently. -/
def same (x y : Double) : Bool := x == y || (x.isZero && y.isZero)

/-- The number with the given sign. -/
def withSign (negative : Bool) (x : Double) : Double := { x with negative }

/-- Numerator of the absolute value. -/
def num (x : Double) : Nat := x.mantissa * Nat.pow 2 x.exponent.toNat

/-- Denominator of the absolute value. -/
def den (x : Double) : Nat := Nat.pow 2 (-x.exponent).toNat

/-- The quotient `n / d` rounded to a natural number, a half to the even neighbour. -/
def nearest (n d : Nat) : Nat :=
  let q := n / d
  let r := n % d
  if 2 * r > d ∨ (2 * r = d ∧ q % 2 = 1) then q + 1 else q

/-- The exponent at which `n / d` has a mantissa of 53 bits, or the smallest exponent there is. -/
def exponentOf (n d : Nat) : Int :=
  let e : Int := (n.log2 : Int) - (d.log2 : Int) - 52
  let short := n * Nat.pow 2 (-e).toNat < Nat.pow 2 52 * (d * Nat.pow 2 e.toNat)
  max (if short then e - 1 else e) minExponent

/-- The double nearest to `n / d`; `none` if that is beyond the greatest one. -/
def ofRatio (negative : Bool) (n d : Nat) : Option Double :=
  if n = 0 then some (zero negative)
  else
    let e := exponentOf n d
    let m := nearest (n * Nat.pow 2 (-e).toNat) (d * Nat.pow 2 e.toNat)
    let (m, e) := if m = Nat.pow 2 53 then (Nat.pow 2 52, e + 1) else (m, e)
    if e > maxExponent then none else some ⟨negative, m, e⟩

/-- The double nearest to a natural number. -/
def ofNat? (n : Nat) : Option Double := ofRatio false n 1

/-- The rounded product. -/
def mul? (x y : Double) : Option Double :=
  ofRatio (x.negative != y.negative) (x.num * y.num) (x.den * y.den)

/-- The rounded quotient by a number other than zero. -/
def div? (x y : Double) : Option Double :=
  ofRatio (x.negative != y.negative) (x.num * y.den) (x.den * y.num)

end Double

end DurableState
