import DurableState.Json.Printer
import DurableState.Text.Quoted

/-!
# DurableState.Json.Fault — why a text is not the document that it should be

A fault has a cause and a place. The place is a line, counted from one, and the number of bytes of
that line that were read up to the fault.
-/

namespace DurableState.Json

/-- What stands where something else is expected. -/
inductive Found where
  | null
  | bool (value : Bool)
  | num (value : Number)
  | str (value : String)
  | arr
  | obj
deriving Repr, DecidableEq, Inhabited

/-- What stands there, in words. -/
def Found.message : Found → String
  | .null => "null"
  | .bool value => "boolean `" ++ (if value then "true" else "false") ++ "`"
  | .num (.int i) => "integer `" ++ Decimal.intText i ++ "`"
  | .num (.float x) => "floating point `" ++ String.ofList (x.chars floatLayout) ++ "`"
  | .str value => "string " ++ Text.quoted value
  | .arr => "sequence"
  | .obj => "map"

/-- What is wrong with a text. -/
inductive Cause where
  -- The text ends.
  | endInValue
  | endInString
  | endInArray
  | endInObject
  -- Something else has to stand here.
  | expectedValue
  | expectedWord
  | expectedKey
  | expectedColon
  | expectedItem
  | expectedField
  -- There is more than there should be.
  | trailingComma
  | trailingText
  | tooDeep
  -- Numbers.
  | invalidNumber
  | numberOutOfRange
  -- Strings.
  | controlCharacter
  | invalidEscape
  | halfPair
  | lonePart
  | notUtf8
  -- The form is right, and the content is not what the document holds here.
  | wrongType (found : Found) (expected : String)
  | wrongValue (found : Found) (expected : String)
  | wrongLength (length : Nat) (expected : String)
  | missingField (name : String)
  | repeatedField (name : String)
  | unknownWord (word : String) (known : List String)
  /-- A string that its own reader refuses. -/
  | refused (reason : String)
deriving Repr, DecidableEq, Inhabited

/-- The words among which one has to be chosen. -/
def choice (words : List String) : String :=
  match words.map fun w => "`" ++ w ++ "`" with
  | [a, b] => a ++ " or " ++ b
  | ws => (if ws.length = 1 then "" else "one of ") ++ ", ".intercalate ws

/-- What is wrong, in words. -/
def Cause.message : Cause → String
  | .endInValue => "EOF while parsing a value"
  | .endInString => "EOF while parsing a string"
  | .endInArray => "EOF while parsing a list"
  | .endInObject => "EOF while parsing an object"
  | .expectedValue => "expected value"
  | .expectedWord => "expected ident"
  | .expectedKey => "key must be a string"
  | .expectedColon => "expected `:`"
  | .expectedItem => "expected `,` or `]`"
  | .expectedField => "expected `,` or `\x7d`"
  | .trailingComma => "trailing comma"
  | .trailingText => "trailing characters"
  | .tooDeep => "recursion limit exceeded"
  | .invalidNumber => "invalid number"
  | .numberOutOfRange => "number out of range"
  | .controlCharacter => "control character (\\u0000-\\u001F) found while parsing a string"
  | .invalidEscape => "invalid escape"
  | .halfPair => "unexpected end of hex escape"
  | .lonePart => "lone leading surrogate in hex escape"
  | .notUtf8 => "invalid unicode code point"
  | .wrongType found expected => "invalid type: " ++ found.message ++ ", expected " ++ expected
  | .wrongValue found expected => "invalid value: " ++ found.message ++ ", expected " ++ expected
  | .wrongLength length expected =>
    "invalid length " ++ Decimal.text length ++ ", expected " ++ expected
  | .missingField name => "missing field `" ++ name ++ "`"
  | .repeatedField name => "duplicate field `" ++ name ++ "`"
  | .unknownWord word known => "unknown variant `" ++ word ++ "`, expected " ++ choice known
  | .refused reason => reason

/-- A cause and its place. -/
structure Fault where
  cause : Cause
  line : Nat
  column : Nat
deriving Repr, DecidableEq, Inhabited

/-- A fault in words. -/
def Fault.message (f : Fault) : String :=
  f.cause.message ++ " at line " ++ Decimal.text f.line ++ " column " ++ Decimal.text f.column

end DurableState.Json
