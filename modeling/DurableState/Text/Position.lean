/-!
# DurableState.Text.Position — places in a text

While a text is read from the front, a place in it is the number of characters that are left there.
People are told a line and a column, both counted from one.
-/

namespace DurableState

/-- Something and the place where it is written. -/
structure Located (α : Type) where
  /-- How many characters of the text are left where it starts. -/
  left : Nat
  val : α
deriving Repr, Inhabited

/-- A line and a column, both counted from one. -/
structure Position where
  line : Nat
  column : Nat
deriving Repr, DecidableEq

namespace Position

/-- The line behind some characters, and how much of it these take by a measure. -/
def behind (size : Char → Nat) (before : List Char) : Position where
  line := before.count '\n' + 1
  column := (before.reverse.takeWhile (· != '\n')).foldr (fun c n => size c + n) 0 + 1

/-- The position of a place. In front of a character of several bytes the column counts bytes, else
characters. The end of a text is one column behind its last character, even if that ends a line. -/
def ofLeft (text : List Char) (left : Nat) : Position :=
  let before := text.take (text.length - left)
  match text.drop (text.length - left) with
  | c :: _ => behind (if c.utf8Size = 1 then fun _ => 1 else Char.utf8Size) before
  | [] =>
    if before.isEmpty then ⟨1, 1⟩
    else
      let last := behind (fun _ => 1) before.dropLast
      { last with column := last.column + 1 }

end Position

end DurableState
