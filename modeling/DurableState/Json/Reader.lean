import DurableState.Json.Token
import DurableState.Json.Tree

/-!
# DurableState.Json.Reader — from tokens to a tree

The reader takes one token at a time and keeps the arrays and objects that are still open, innermost
first. A text is read if its tokens form exactly one value.
-/

namespace DurableState.Json

/-- An array or object that is still open; items and fields are kept in reverse. -/
inductive Frame where
  | arr (items : List Tree)
  /-- With the key that waits for its value. -/
  | obj (fields : List (Option String × Tree)) (key : Option String)
deriving Repr, Inhabited

/-- What the reader waits for. -/
inductive Reader where
  /-- A value; right behind an opening bracket the array may also end. -/
  | value (frames : List Frame) (mayClose : Bool)
  /-- A key; right behind an opening brace the object may also end. -/
  | key (fields : List (Option String × Tree)) (frames : List Frame) (mayClose : Bool)
  /-- The colon behind a key. -/
  | colon (frames : List Frame)
  /-- A comma, or the end of the innermost array or object. -/
  | next (frames : List Frame)
  /-- The end of the text. -/
  | done (tree : Tree)
deriving Repr, Inhabited

namespace Reader

/-- The reader before the first token. -/
def start : Reader := .value [] false

/-- A value is complete: it goes to the innermost open array or object. -/
def deliver (t : Tree) : List Frame → Reader
  | [] => .done t
  | .arr items :: frames => .next (.arr (t :: items) :: frames)
  | .obj fields k :: frames => .next (.obj ((k, t) :: fields) none :: frames)

/-- Takes the next token. -/
def step : Reader → Token → Option Reader
  | .value frames _, .null => some (deliver .null frames)
  | .value frames _, .bool b => some (deliver (.bool b) frames)
  | .value frames _, .num n => some (deliver (.num n) frames)
  | .value frames _, .str s => some (deliver (.str s) frames)
  | .value frames _, .openArr => some (.value (.arr [] :: frames) true)
  | .value frames _, .openObj => some (.key [] frames true)
  | .value (.arr items :: frames) true, .closeArr => some (deliver (.arr items.reverse) frames)
  | .key fields frames _, .str k => some (.colon (.obj fields k :: frames))
  | .key fields frames true, .closeObj => some (deliver (.obj fields.reverse) frames)
  | .colon frames, .colon => some (.value frames false)
  | .next (.arr items :: frames), .comma => some (.value (.arr items :: frames) false)
  | .next (.arr items :: frames), .closeArr => some (deliver (.arr items.reverse) frames)
  | .next (.obj fields _ :: frames), .comma => some (.key fields frames false)
  | .next (.obj fields _ :: frames), .closeObj => some (deliver (.obj fields.reverse) frames)
  | _, _ => none

/-- The tree, if the text is complete. -/
def finish : Reader → Option Tree
  | .done t => some t
  | _ => none

end Reader

/-- The tree of a sequence of tokens. -/
def Tree.ofTokens? (ts : List Token) : Option Tree :=
  (ts.foldlM Reader.step Reader.start).bind Reader.finish

/-- The tree of a text. -/
def Tree.ofChars? (text : List Char) : Option Tree := (tokens? text).bind Tree.ofTokens?

/-- The tree of a text in which bytes that belong to no character stand as `none`. -/
def Tree.ofCharsWithStrays? (text : List (Option Char)) : Option Tree :=
  (tokensWithStrays? text).bind Tree.ofTokens?

/-- The tree of a text. -/
def Tree.ofText? (text : String) : Option Tree := Tree.ofChars? text.toList

end DurableState.Json
