import DurableState.Json.Numeral

/-!
# DurableState.Json.Tree — a JSON text as it is written

A tree keeps what the text says before anything is evaluated: fields in their order and repeated
ones twice, numbers as numerals, and `none` for a string that does not consist of characters. What a
document ignores is only held to this form, so a skipped value may nest without limit, name half of
a surrogate pair or a number beyond all doubles, and hold bytes that are no text.
-/

namespace DurableState.Json

/-- A JSON text. -/
inductive Tree where
  | null
  | bool (value : Bool)
  | num (value : Numeral)
  | str (value : Option String)
  | arr (items : List Tree)
  | obj (fields : List (Option String × Tree))
deriving Repr, Inhabited

end DurableState.Json
