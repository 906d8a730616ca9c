import DurableState.Failure
import DurableState.Settings
import DurableState.Text.Alphanumeric
import DurableState.Text.Blank

/-!
# DurableState.Settings.EnvFile — variables from a file

A file of lines `NAME=value` adds variables to those that are set; a variable that is set stays as
it is. Values may be quoted, also over several lines, and may name other variables. Reading ends at
the first line that is not well formed, and what stands before it counts.
-/

namespace DurableState.EnvFile

/-- The mark that lets variables through. -/
def weakMark : Char := '\x22'

/-- The mark that lets nothing through. -/
def strongMark : Char := '\x27'

/-! ## Lines -/

/-- Where a scan for the end of a line stands. -/
inductive LineState where
  | plain
  /-- Behind a blank, where a comment may start. -/
  | blank
  | escape
  | weak
  | weakEscape
  | strong
  | strongEscape
deriving Repr, DecidableEq

namespace LineState

/-- The state behind a character outside of quotes. -/
def outside (c : Char) : LineState :=
  if c = '\\' then .escape
  else if c = weakMark then .weak
  else if c = strongMark then .strong
  else .plain

/-- The state behind a character. -/
def next (s : LineState) (c : Char) : LineState :=
  match s with
  | .plain => if Text.isBlank c && c != '\n' && c != '\r' then .blank else outside c
  | .blank => outside c
  | .escape => .plain
  | .weak => if c = '\\' then .weakEscape else if c = weakMark then .plain else .weak
  | .weakEscape => .weak
  | .strong => if c = '\\' then .strongEscape else if c = strongMark then .plain else .strong
  | .strongEscape => .strong

/-- Goes over a line: the state behind it, or what stands before a comment. -/
def scan (s : LineState) (before : List Char) : List Char → LineState ⊕ List Char
  | [] => .inl s
  | c :: rest =>
    if s = .blank ∧ c = '#' then .inr before.reverse else scan (s.next c) (c :: before) rest

end LineState

/-- A line without its end. -/
def dropNewline (line : List Char) : List Char :=
  match line.reverse with
  | '\n' :: '\r' :: rest => rest.reverse
  | '\n' :: rest => rest.reverse
  | _ => line

/-- Whether the first thing in a text is a comment. -/
def isComment (cs : List Char) : Bool := (Text.trimLeft cs).head? == some '#'

/-- Joins lines that a quote runs through. `start` is what came before in such a quote. A quote that
never ends takes the last lines with it. -/
def joinLines (start : List Char) (s : LineState) : List (List Char) → List (List Char)
  | [] => []
  | line :: rest =>
    let whole := start ++ line
    if isComment whole then joinLines [] .plain rest
    else
      match s.scan [] line with
      | .inl .plain => dropNewline whole :: joinLines [] .plain rest
      | .inl open' => joinLines whole open' rest
      | .inr before => (start ++ before) :: joinLines [] .plain rest

/-- Cuts bytes behind every end of line. -/
def cutLines : List UInt8 → List (List UInt8)
  | [] => []
  | b :: rest =>
    if b = 0x0a then [b] :: cutLines rest
    else
      match cutLines rest with
      | [] => [[b]]
      | line :: lines => (b :: line) :: lines

/-- The lines of a file, up to the first that is not UTF-8. A byte order mark in front is left
out. -/
def lines (bytes : List UInt8) : List (List Char) :=
  let bytes := if [0xef, 0xbb, 0xbf].isPrefixOf bytes then bytes.drop 3 else bytes
  let decoded := (cutLines bytes).map fun line => String.fromUTF8? ⟨line.toArray⟩
  joinLines [] .plain ((decoded.takeWhile Option.isSome).filterMap (Option.map String.toList))

/-! ## Values -/

/-- What a name stands for while a value is read: a variable that is set, or else one from an
earlier line. -/
abbrev Lookup := String → String

/-- A variable that is being named in a value. -/
inductive Naming where
  | none
  /-- Behind `$`. -/
  | bare (name : List Char)
  /-- Behind `$` and an opening brace. -/
  | braced (name : List Char)
deriving Repr, DecidableEq

/-- Where the reading of a value stands. -/
structure ValueState where
  output : List Char := []
  strong : Bool := false
  weak : Bool := false
  escaped : Bool := false
  /-- Behind a blank, where only a comment may follow. -/
  ended : Bool := false
  naming : Naming := .none

namespace ValueState

/-- Adds a character to the value. -/
def push (s : ValueState) (c : Char) : ValueState := { s with output := s.output ++ [c] }

/-- Adds the value of a variable. -/
def pushVariable (s : ValueState) (look : Lookup) (name : List Char) : ValueState :=
  { s with output := s.output ++ (look (String.ofList name)).toList, naming := .none }

/-- The state behind a character, or `none` if it may not stand there. -/
def next (look : Lookup) (s : ValueState) (c : Char) : Option ValueState :=
  if s.ended then if c = ' ' ∨ c = '\t' then some s else none
  else if s.escaped then
    let s := { s with escaped := false }
    if c = '\\' ∨ c = strongMark ∨ c = weakMark ∨ c = '$' ∨ c = ' ' then some (s.push c)
    else if c = 'n' then some (s.push '\n')
    else none
  else if s.strong then if c = strongMark then some { s with strong := false } else some (s.push c)
  else
    match s.naming with
    | .bare name =>
      if Text.isAlphanumeric c then some { s with naming := .bare (name ++ [c]) }
      else if c = '\x7b' ∧ name = [] then some { s with naming := .braced [] }
      else
        let s := s.pushVariable look name
        if c = '$' then some { s with naming := .bare [] } else some (s.push c)
    | .braced name =>
      if c = '\x7d' then some (s.pushVariable look name)
      else some { s with naming := .braced (name ++ [c]) }
    | .none =>
      if c = '$' then some { s with naming := .bare [] }
      else if s.weak then
        if c = weakMark then some { s with weak := false }
        else if c = '\\' then some { s with escaped := true }
        else some (s.push c)
      else if c = strongMark then some { s with strong := true }
      else if c = weakMark then some { s with weak := true }
      else if c = '\\' then some { s with escaped := true }
      else if c = ' ' ∨ c = '\t' then some { s with ended := true }
      else some (s.push c)

/-- The value at the end of a line. Quotes and braces have to be closed. -/
def finish (look : Lookup) (s : ValueState) : Option String :=
  if s.strong || s.weak then none
  else
    match s.naming with
    | .none => some (String.ofList s.output)
    | .bare name => some (String.ofList (s.pushVariable look name).output)
    | .braced _ => none

end ValueState

/-- Reads a value up to a comment or the end of the line. -/
def readValue (look : Lookup) (s : ValueState) : List Char → Option String
  | [] => s.finish look
  | c :: rest =>
    if s.ended && c == '#' then s.finish look
    else
      match s.next look c with
      | none => none
      | some s => readValue look s rest

/-! ## Assignments -/

/-- The name in front of a text, and what follows it. -/
def readName (cs : List Char) : Option (List Char × List Char) :=
  match cs with
  | c :: _ =>
    if c.isAlpha || c == '_' then
      let part (c : Char) : Bool := c.isAlphanum || c == '_' || c == '.'
      some (cs.takeWhile part, cs.dropWhile part)
    else none
  | [] => none

/-- What stands behind an equals sign; blanks may stand in front of it. -/
def behindEquals (cs : List Char) : Option (List Char) :=
  match Text.trimLeft cs with
  | '=' :: rest => some (Text.trimLeft rest)
  | _ => none

/-- The name and the text of the value in a line. The word `export` may stand in front. -/
def splitLine (cs : List Char) : Option (List Char × List Char) := do
  let (name, rest) ← readName cs
  match behindEquals rest with
  | some value => return (name, value)
  | none =>
    guard (name = "export".toList)
    let (name, rest) ← readName (Text.trimLeft rest)
    return (name, ← behindEquals rest)

/-- What a line holds. -/
inductive Line where
  | nothing
  | assignment (name value : String)
  | malformed
deriving Repr, DecidableEq

/-- Reads a line. -/
def readLine (look : Lookup) (line : List Char) : Line :=
  let cs := Text.trimLeft (Text.trimRight line)
  if cs.isEmpty || isComment cs then .nothing
  else
    match splitLine cs with
    | none => .malformed
    | some (name, value) =>
      if value.isEmpty || isComment value then .assignment (String.ofList name) ""
      else
        match readValue look {} value with
        | none => .malformed
        | some v => .assignment (String.ofList name) v

/-- The variables that are set, and those of the lines so far. -/
structure Variables where
  set : Environment
  read : SortedMap String String := ∅

/-- What a name stands for. -/
def Variables.look (v : Variables) : Lookup := fun name =>
  ((v.set.find? name).or (v.read.get? name)).getD ""

/-- Sets a variable that is not set yet. -/
def Variables.assign (v : Variables) (name value : String) : Except Crash Variables :=
  let read := v.read.insert name value
  if (v.set.find? name).isSome then .ok { v with read }
  else if value.toList.contains '\x00' then .error (.nulInVariable name)
  else .ok { set := v.set.add name value, read }

/-- Adds the variables of some lines, up to the first malformed one. -/
def addLines (v : Variables) : List (List Char) → Except Crash Variables
  | [] => .ok v
  | line :: rest =>
    match readLine v.look line with
    | .nothing => addLines v rest
    | .malformed => .ok v
    | .assignment name value =>
      match v.assign name value with
      | .ok v => addLines v rest
      | .error c => .error c

/-- The variables that are set once a file is read. -/
def load (env : Environment) (bytes : List UInt8) : Except Crash Environment :=
  (addLines { set := env } (lines bytes)).map Variables.set

end DurableState.EnvFile
