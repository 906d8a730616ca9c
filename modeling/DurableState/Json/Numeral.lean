import DurableState.Decimal.Digits
import DurableState.Json.Basic

/-!
# DurableState.Json.Numeral — numbers as they are written

A numeral keeps the digits of a JSON number. Its value is an integer if it has neither a fraction
nor an exponent and fits 64 bits, else a double: the leading digits that fit a word of 64 bits are
rounded to a double, which is then multiplied or divided by the double nearest to a power of ten.
-/

namespace DurableState

/-- The exponent of a numeral. -/
structure Numeral.Exponent where
  negative : Bool
  digits : List Char
deriving Repr, DecidableEq, Inhabited

/-- A number as it is written. There is no fraction if `fraction` is empty. -/
structure Numeral where
  negative : Bool
  whole : List Char
  fraction : List Char
  exponent : Option Numeral.Exponent
deriving Repr, DecidableEq, Inhabited

namespace Numeral

/-! ## Grammar -/

/-- The characters of which numerals are made. -/
def isNumeralChar (c : Char) : Bool :=
  c.isDigit || c == '-' || c == '+' || c == '.' || c == 'e' || c == 'E'

/-- The exponent part of a numeral: nothing, or `e`, a sign if any, and digits. -/
def exponentOfChars? : List Char → Option (Option Exponent)
  | [] => some none
  | c :: cs =>
    if c = 'e' ∨ c = 'E' then
      let (negative, ds) := match cs with
        | '+' :: ds => (false, ds)
        | '-' :: ds => (true, ds)
        | ds => (false, ds)
      if Decimal.isNumeral ds then some (some ⟨negative, ds⟩) else none
    else none

/-- The part of a numeral behind its whole digits. -/
def tailOfChars? : List Char → Option (List Char × Option Exponent)
  | '.' :: cs =>
    let fraction := cs.takeWhile Char.isDigit
    if fraction.isEmpty then none
    else (exponentOfChars? (cs.dropWhile Char.isDigit)).map fun e => (fraction, e)
  | cs => (exponentOfChars? cs).map fun e => ([], e)

/-- Reads what stands behind the sign of a numeral. A number other than zero has no leading zero. -/
def unsigned? (negative : Bool) (cs : List Char) : Option Numeral :=
  let whole := cs.takeWhile Char.isDigit
  match whole with
  | [] => none
  | '0' :: _ :: _ => none
  | _ => (tailOfChars? (cs.dropWhile Char.isDigit)).map fun (fraction, exponent) =>
    ⟨negative, whole, fraction, exponent⟩

/-- Reads a whole text as a numeral. -/
def ofChars? : List Char → Option Numeral
  | '-' :: cs => unsigned? true cs
  | cs => unsigned? false cs

/-! ## Integers -/

/-- The integer a numeral denotes, if it is written as one. A zero with a sign is not. -/
def toInt? (n : Numeral) : Option Int :=
  if n.fraction.isEmpty && n.exponent.isNone then
    let v := Decimal.value n.whole
    if n.negative then (if v = 0 then none else some (-(v : Int))) else some v
  else none

/-! ## Doubles -/

/-- The number of a significand as far as it fits 64 bits. Gives the digits that are left. -/
def absorb (significand : Nat) : List Char → Nat × List Char
  | [] => (significand, [])
  | c :: cs =>
    let next := 10 * significand + Decimal.digitValue c
    if next < UInt64.size then absorb next cs else (significand, c :: cs)

/-- The greatest power of ten that is a double. -/
def greatestPower : Nat := 308

/-- The double nearest to a power of ten. -/
def power (k : Nat) : Option Double := Double.ofNat? (Nat.pow 10 k)

/-- Divides by `10 ^ k`, at most by `10 ^ 308` in one step. -/
def scaleDown (x : Double) : Nat → Nat → Option Double
  | 0, _ => some x
  | fuel + 1, k =>
    if k ≤ greatestPower then (power k).bind x.div?
    else if x.isZero then some x
    else ((power greatestPower).bind x.div?).bind fun y => scaleDown y fuel (k - greatestPower)

/-- The double `significand * 10 ^ exponent`; `none` beyond the greatest double. -/
def scaled (significand : Nat) (exponent : Int) : Option Double := do
  let x ← Double.ofNat? significand
  if exponent < 0 then scaleDown x 4 (-exponent).toNat
  else if exponent ≤ greatestPower then (power exponent.toNat).bind x.mul?
  else if x.isZero then some x
  else none

/-- The double a numeral denotes. -/
def toDouble? (n : Numeral) : Option Double :=
  let (s, dropped) := absorb 0 n.whole
  let (s, unread) := absorb s n.fraction
  let e : Int := (dropped.length : Int) - (n.fraction.length - unread.length : Nat)
  let magnitude := match n.exponent with
    | none => scaled s e
    | some x =>
      let v := Decimal.value x.digits
      -- an exponent of more than 31 bits decides alone
      if v < 2147483648 then scaled s (if x.negative then e - v else e + v)
      else if s ≠ 0 ∧ ¬ x.negative then none
      else some (Double.zero false)
  magnitude.map (Double.withSign n.negative)

/-- The number a numeral denotes. -/
def toNumber? (n : Numeral) : Option Number :=
  match n.toInt? with
  | some i => if (Number.int i).isCanonical then some (.int i) else n.toDouble?.map .float
  | none => n.toDouble?.map .float

end Numeral

end DurableState
