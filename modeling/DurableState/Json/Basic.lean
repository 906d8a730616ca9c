import DurableState.Data.SortedMap
import DurableState.Decimal.Double

/-!
# DurableState.Json.Basic — JSON values

The values that documents carry and that are printed. An object is the list of its fields; a value
whose objects all have strictly increasing keys and whose integers fit 64 bits is *canonical*, and
that is the form in which free values are read.
-/

namespace DurableState

/-- A JSON number: an integer, or a double. The integer `1` and the double `1.0` are different. -/
inductive Number where
  | int (value : Int)
  | float (value : Double)
deriving Repr, DecidableEq, Inhabited

/-- A JSON value. -/
inductive Json where
  | null
  | bool (value : Bool)
  | num (value : Number)
  | str (value : String)
  | arr (items : List Json)
  | obj (fields : List (String × Json))
deriving Repr, Inhabited

namespace Number

/-- A number as a natural number. -/
def ofNat (n : Nat) : Number := .int n

/-- Equality of numbers, in which the two zeros of doubles are equal. -/
def same : Number → Number → Bool
  | .int a, .int b => a == b
  | .float a, .float b => a.same b
  | _, _ => false

/-- An integer that fits an unsigned or a signed word of 64 bits, or any double. -/
def isCanonical : Number → Bool
  | .int i => -9223372036854775808 ≤ i && i < UInt64.size
  | .float _ => true

end Number

namespace Json

mutual

/-- Equality of values, in which the two zeros of doubles are equal. -/
def same : Json → Json → Bool
  | .null, .null => true
  | .bool a, .bool b => a == b
  | .num a, .num b => a.same b
  | .str a, .str b => a == b
  | .arr as, .arr bs => sameItems as bs
  | .obj as, .obj bs => sameFields as bs
  | _, _ => false

def sameItems : List Json → List Json → Bool
  | [], [] => true
  | a :: as, b :: bs => same a b && sameItems as bs
  | _, _ => false

def sameFields : List (String × Json) → List (String × Json) → Bool
  | [], [] => true
  | (k, a) :: as, (l, b) :: bs => k == l && same a b && sameFields as bs
  | _, _ => false

end

mutual

/-- Strictly increasing keys in every object and integers of 64 bits. -/
def isCanonical : Json → Bool
  | .null | .bool _ | .str _ => true
  | .num n => n.isCanonical
  | .arr items => canonicalItems items
  | .obj fields => canonicalFields fields

def canonicalItems : List Json → Bool
  | [] => true
  | j :: rest => isCanonical j && canonicalItems rest

def canonicalFields : List (String × Json) → Bool
  | [] => true
  | (k, j) :: rest =>
    (match rest with
      | [] => true
      | (l, _) :: _ => compare k l == .lt) && isCanonical j && canonicalFields rest

end

/-- The number of nested arrays and objects. -/
def depth : Json → Nat
  | .null | .bool _ | .num _ | .str _ => 0
  | .arr items => itemsDepth items + 1
  | .obj fields => fieldsDepth fields + 1
where
  itemsDepth : List Json → Nat
    | [] => 0
    | j :: rest => max (depth j) (itemsDepth rest)
  fieldsDepth : List (String × Json) → Nat
    | [] => 0
    | (_, j) :: rest => max (depth j) (fieldsDepth rest)

/-- A natural number as a value. -/
def nat (n : Nat) : Json := .num (.ofNat n)

/-- An object with its keys in order; of two fields with one key the later one stays. -/
def ofFields (fields : List (String × Json)) : Json := .obj (SortedMap.ofList fields).entries

/-- A map as an object. -/
def ofMap {α : Type} (f : α → Json) (m : SortedMap String α) : Json := .obj (m.mapValues f).entries

end Json

end DurableState
