import DurableState.Decimal.Digits
import DurableState.Decimal.Double

/-!
# DurableState.Decimal.Shortest — the fewest digits that read back

Of all decimals that round to a given double, the shortest one is chosen; among several of that
length the nearest, and of two equally near the even one. The search runs over grids of one, two,
up to seventeen digits and looks at the two neighbours of the value on each grid.
-/

namespace DurableState.Decimal

/-- The number `digits * 10 ^ exponent`. -/
structure Scientific where
  digits : Nat
  exponent : Int
deriving Repr, DecidableEq, Inhabited

/-- The greatest `k` with `10 ^ k ≤ n / d`, for a positive `n / d` above `10 ^ -400`. -/
def magnitude (n d : Nat) : Int :=
  if d ≤ n then ((digitChars (n / d)).length : Int) - 1
  else
    match (List.range 400).find? fun j => d ≤ n * Nat.pow 10 j with
    | some j => -(j : Int)
    | none => -400

/-- The reals that round to a double, in units of `2 ^ (exponent - 2)`: both ends, and whether the
ends belong to them. Below a power of two the lower half is narrower. -/
structure Interval where
  low : Nat
  high : Nat
  closed : Bool
deriving Repr, DecidableEq

/-- The reals that round to `x`. -/
def interval (x : Double) : Interval :=
  let narrow := x.mantissa = Nat.pow 2 52 ∧ x.exponent > Double.minExponent
  { low := 4 * x.mantissa - (if narrow then 1 else 2)
    high := 4 * x.mantissa + 2
    closed := x.mantissa % 2 = 0 }

/-- Whether `c * 10 ^ g` lies in the interval of `x`. -/
def hits (x : Double) (c : Nat) (g : Int) : Bool :=
  let i := interval x
  let unit := x.exponent - 2
  -- both sides scaled to natural numbers
  let c' := c * Nat.pow 10 g.toNat * Nat.pow 2 (-unit).toNat
  let scale := Nat.pow 2 unit.toNat * Nat.pow 10 (-g).toNat
  if i.closed then i.low * scale ≤ c' ∧ c' ≤ i.high * scale
  else i.low * scale < c' ∧ c' < i.high * scale

/-- The best decimal with grid `10 ^ g`, if one rounds to `x`. -/
def onGrid (x : Double) (g : Int) : Option Nat :=
  let n := x.num * Nat.pow 10 (-g).toNat
  let d := x.den * Nat.pow 10 g.toNat
  let c := n / d
  let r := n % d
  match hits x c g, hits x (c + 1) g with
  | false, false => none
  | true, false => some c
  | false, true => some (c + 1)
  | true, true => some (if 2 * r < d ∨ (2 * r = d ∧ c % 2 = 0) then c else c + 1)

/-- The number with the zeros at the end of its digits moved to the exponent. -/
def trim (s : Scientific) : Nat → Scientific
  | 0 => s
  | fuel + 1 =>
    if s.digits ≠ 0 ∧ s.digits % 10 = 0 then trim ⟨s.digits / 10, s.exponent + 1⟩ fuel else s

/-- The shortest decimal that rounds to the absolute value of `x`, which is not zero. -/
def shortest (x : Double) : Scientific :=
  let k := magnitude x.num x.den
  let found := (List.range 17).findSome? fun (n : Nat) =>
    let g := k - n
    (onGrid x g).map fun c => (⟨c, g⟩ : Scientific)
  trim (found.getD ⟨x.mantissa, 0⟩) 20

end DurableState.Decimal
