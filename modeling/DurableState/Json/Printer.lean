import DurableState.Decimal.Shortest
import DurableState.Json.Basic

/-!
# DurableState.Json.Printer — the text of a JSON value

Two layouts: compact, without any blank, and indented by two blanks a level. Doubles are written
with the fewest digits that read back.
-/

namespace DurableState

/-! ## Numbers -/

/-- How doubles are laid out. -/
structure FloatLayout where
  /-- Below this decimal exponent a number is written in scientific form. -/
  least : Int
  /-- From this decimal exponent on a number is written in scientific form. -/
  bound : Int
deriving Repr, DecidableEq

/-- Doubles in documents: positional from `0.00001` up to sixteen digits before the point, else
scientific with a signed exponent. -/
def Json.floatLayout : FloatLayout := ⟨-5, 16⟩

namespace Decimal

/-- The digits `ds`, the first of which counts `10 ^ e`, written with a point and at least one digit
on both sides of it. -/
def positional (ds : List Char) (e : Int) : List Char :=
  if e < 0 then '0' :: '.' :: (List.replicate ((-e).toNat - 1) '0' ++ ds)
  else
    let whole := e.toNat + 1
    let before := ds.take whole ++ List.replicate (whole - ds.length) '0'
    let after := ds.drop whole
    before ++ '.' :: (if after.isEmpty then ['0'] else after)

/-- The digits `ds`, the first of which counts `10 ^ e`, written as `d.ddde+x`. -/
def scientific (ds : List Char) (e : Int) : List Char :=
  let mantissa := match ds with
    | [] => []
    | [d] => [d]
    | d :: rest => d :: '.' :: rest
  mantissa ++ 'e' :: (if e < 0 then '-' else '+') :: digitChars e.natAbs

end Decimal

/-- The text of a double. -/
def Double.chars (layout : FloatLayout) (x : Double) : List Char :=
  let sign := if x.negative then ['-'] else []
  if x.isZero then sign ++ ['0', '.', '0']
  else
    let s := Decimal.shortest x
    let ds := Decimal.digitChars s.digits
    let e := s.exponent + (ds.length : Int) - 1
    sign ++ (if layout.least ≤ e ∧ e < layout.bound then Decimal.positional ds e
      else Decimal.scientific ds e)

/-- The text of an integer. -/
def Number.intChars (i : Int) : List Char :=
  if i < 0 then '-' :: Decimal.digitChars i.natAbs else Decimal.digitChars i.natAbs

/-- The text of a number. -/
def Number.chars : Number → List Char
  | .int i => intChars i
  | .float x => x.chars Json.floatLayout

namespace Json

/-! ## Strings -/

/-- A character inside a quoted string. -/
def escape (c : Char) : List Char :=
  if c = '"' then ['\\', '"']
  else if c = '\\' then ['\\', '\\']
  else if c = '\x08' then ['\\', 'b']
  else if c = '\x0c' then ['\\', 'f']
  else if c = '\n' then ['\\', 'n']
  else if c = '\x0d' then ['\\', 'r']
  else if c = '\t' then ['\\', 't']
  else if c.toNat < 32 then
    ['\\', 'u', '0', '0', Decimal.hexChar (c.toNat / 16), Decimal.hexChar (c.toNat % 16)]
  else [c]

/-- A quoted string. -/
def quote (s : String) : List Char := '"' :: (s.toList.flatMap escape ++ ['"'])

/-! ## Compact layout -/

mutual

/-- The compact text of a value. -/
def chars : Json → List Char
  | .null => ['n', 'u', 'l', 'l']
  | .bool true => ['t', 'r', 'u', 'e']
  | .bool false => ['f', 'a', 'l', 's', 'e']
  | .num n => n.chars
  | .str s => quote s
  | .arr [] => ['[', ']']
  | .arr (j :: rest) => '[' :: (chars j ++ (itemChars rest ++ [']']))
  | .obj [] => ['\x7b', '\x7d']
  | .obj ((k, j) :: rest) =>
    '\x7b' :: (quote k ++ ':' :: (chars j ++ (fieldChars rest ++ ['\x7d'])))

/-- The items after the first, each behind a comma. -/
def itemChars : List Json → List Char
  | [] => []
  | j :: rest => ',' :: (chars j ++ itemChars rest)

/-- The fields after the first, each behind a comma. -/
def fieldChars : List (String × Json) → List Char
  | [] => []
  | (k, j) :: rest => ',' :: (quote k ++ ':' :: (chars j ++ fieldChars rest))

end

/-- The compact text of a value. -/
def compact (j : Json) : String := String.ofList (chars j)

/-! ## Indented layout -/

/-- A line break followed by the indentation of a level. -/
def lineBreak (level : Nat) : List Char := '\n' :: List.replicate (2 * level) ' '

mutual

/-- The text of a value that stands on the given level. -/
def indentedChars (level : Nat) : Json → List Char
  | .arr (j :: rest) =>
    '[' :: (lineBreak (level + 1) ++ indentedChars (level + 1) j ++
      indentedItems (level + 1) rest ++ lineBreak level ++ [']'])
  | .obj ((k, j) :: rest) =>
    '\x7b' :: (lineBreak (level + 1) ++ quote k ++ [':', ' '] ++ indentedChars (level + 1) j ++
      indentedFields (level + 1) rest ++ lineBreak level ++ ['\x7d'])
  | j => chars j

/-- The items after the first, each on a line of its own. -/
def indentedItems (level : Nat) : List Json → List Char
  | [] => []
  | j :: rest => ',' :: (lineBreak level ++ indentedChars level j ++ indentedItems level rest)

/-- The fields after the first, each on a line of its own. -/
def indentedFields (level : Nat) : List (String × Json) → List Char
  | [] => []
  | (k, j) :: rest =>
    ',' :: (lineBreak level ++ quote k ++ [':', ' '] ++ indentedChars level j ++
      indentedFields level rest)

end

/-- The text of a value with one item or field a line. -/
def indented (j : Json) : String := String.ofList (indentedChars 0 j)

end Json

end DurableState
