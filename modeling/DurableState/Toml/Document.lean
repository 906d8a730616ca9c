import DurableState.Toml.Scalar

/-!
# DurableState.Toml.Document — TOML documents

A document is a list of statements, which are carried out one after the other on the outermost
table. Whatever is wrong with a document has a place: that of the first statement which cannot be
carried out, or where reading stopped behind the last one that could.
-/

namespace DurableState.Toml

open Scan

/-! ## Keys -/

/-- Arrays, inline tables and dotted keys have fewer levels. -/
def levelBound : Nat := 80

/-- Whether a character may stand in a key without marks. -/
def isBare (c : Char) : Bool := c.isAlphanum || c == '-' || c == '_'

/-- One part of a key. -/
def simpleKey : Scan String :=
  basicString <|> literalString <|> (do return String.ofList (← span1 isBare))

/-- One part of a key with blanks around it. -/
def spacedKey : Scan Part := do
  spaces
  let key ← located simpleKey
  spaces
  return key

/-- A key: the parts that lead to a table, and the last one. -/
structure Key where
  path : List Part
  last : Part
deriving Repr

/-- All parts of a key. -/
def Key.parts (k : Key) : List Part := k.path ++ [k.last]

/-- A key of parts with dots between them. One of too many parts is a stop where it starts. -/
def dottedKey : Scan Key := do
  let start ← here
  let first ← spacedKey
  let more ← repeated (do char '.'; spacedKey)
  let parts := first :: more
  if parts.length < levelBound then return ⟨parts.dropLast, parts.getLast?.getD first⟩
  else stopAt start

/-! ## Values -/

/-- A key and a value in braces. -/
def inlinePair (value : Scan (Located Value)) : Scan (Key × Located Value) := do
  let key ← dottedKey
  committed do
    char '='
    spaces
    let v ← value
    spaces
    return (key, v)

/-- The entries that the pairs of a value in braces make up, unless two of them clash. -/
def inlineEntries (pairs : List (Key × Located Value)) : Option Entries :=
  pairs.foldlM (fun es (key, v) => Entries.addDotted key.last.val v key.path true es) []

/-- A value in braces. Pairs that clash are a stop in front of the first. -/
def inlineTable (value : Scan (Located Value)) : Scan Value := do
  char '\x7b'
  committed do
    let start ← here
    let pairs ← separated (inlinePair value) (char ',')
    spaces
    match inlineEntries pairs with
    | none => stopAt start
    | some entries =>
      char '\x7d'
      return .table .braces entries

/-- A value in brackets. -/
def array (value : Scan (Located Value)) : Scan Value := do
  char '['
  committed do
    let item := do
      filler
      let v ← value
      filler
      return v
    let items ← separated item (char ',')
    if !items.isEmpty then
      let _ ← maybe (char ',')
    filler
    char ']'
    return .array items

/-- A value that holds no other. Its first character tells what it has to be. -/
def scalar (first : Char) : Scan Value :=
  if first == quotation || first == apostrophe then do return .string (← string)
  else if first == '+' || first == '-' || first.isDigit then
    (do return .dateTime (← dateTime)) <|> (do return .float (← float)) <|>
      (do return .integer (← integer))
  else
    match first with
    | '_' => do return .integer (← integer)
    | '.' | 'i' | 'n' => do return .float (← float)
    | 't' => do
      committed (text "true".toList)
      return .boolean true
    | 'f' => do
      committed (text "false".toList)
      return .boolean false
    | _ => stop

/-- A value in which arrays and inline tables have at most the given number of levels. -/
def value (levels : Nat) : Scan (Located Value) := located do
  match (← here).head? with
  | none => stop
  | some first =>
    match levels with
    | 0 => if first == '[' || first == '\x7b' then committed stop else scalar first
    | levels + 1 =>
      if first == '[' then array (value levels)
      else if first == '\x7b' then inlineTable (value levels)
      else scalar first

/-! ## Statements -/

/-- A statement of a document. -/
inductive Statement where
  /-- An empty line or a comment. -/
  | nothing
  /-- The header of a table. -/
  | table (key : Key)
  /-- A header that may be repeated. -/
  | repeated (key : Key)
  | pair (key : Key) (value : Located Value)
deriving Repr

/-- A header in brackets. It has to be more than one character. -/
def header : Scan Statement := do
  let start ← here
  match start with
  | '[' :: '[' :: _ =>
    text ['[', '[']
    let key ← dottedKey
    text [']', ']']
    lineEnd
    return .repeated key
  | '[' :: _ :: _ =>
    char '['
    let key ← dottedKey
    char ']'
    lineEnd
    return .table key
  | _ => stop

/-- A key with its value. -/
def pair : Scan Statement := do
  let key ← dottedKey
  char '='
  spaces
  let v ← value (levelBound - 1)
  lineEnd
  return .pair key v

/-- A statement with the end of its line. Its first character tells what it has to be. -/
def statement : Scan Statement := do
  match (← here).head? with
  | none => stop
  | some '#' => committed do
    comment
    newline <|> finish
    return .nothing
  | some '[' => committed header
  | some '\n' | some '\r' =>
    newline
    return .nothing
  | some _ => committed pair

/-- The statements of a document, and beside them the text behind them or the final stop. A byte
order mark and blanks may stand in front. -/
def statements (cs : List Char) : List (Located Statement) × Except Stop (List Char) :=
  let cs := if cs.head? = some '\ufeff' then cs.tail else cs
  let cs := cs.dropWhile isSpace
  upTo (do let s ← located statement; spaces; return s) cs.length cs

/-! ## Meaning -/

/-- The outermost table, and the way to the table that pairs are added to. -/
structure Building where
  root : Entries := []
  current : List Part := []

/-- Carries out a statement. -/
def Building.add (b : Building) (s : Located Statement) : Option Building :=
  match s.val with
  | .nothing => some b
  | .table key =>
    (Entries.modifyAt (Entries.openTable s.left key.last.val) key.path b.root).map fun root =>
      ⟨root, key.parts⟩
  | .repeated key =>
    (Entries.modifyAt (Entries.openRepeated s.left key.last.val) key.path b.root).map fun root =>
      ⟨root, key.parts⟩
  | .pair key v =>
    (Entries.modifyAt (Entries.addDotted key.last.val v key.path true) b.current b.root).map
      fun root => { b with root }

/-- Carries out statements, or gives the place of the first that is refused. -/
def Building.addAll (b : Building) (ss : List (Located Statement)) : Except Nat Building :=
  ss.foldlM (fun b s => (b.add s).elim (.error s.left) .ok) b

/-- The outermost table of a document, or the place where it is wrong. -/
def ofText (cs : List Char) : Except Nat Entries := do
  let (statements, outcome) := statements cs
  let b ← Building.addAll {} statements
  match outcome with
  | .error stop => .error stop.rest.length
  | .ok [] => return b.root
  | .ok rest => .error rest.length

end DurableState.Toml
