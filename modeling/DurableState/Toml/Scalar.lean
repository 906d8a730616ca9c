import DurableState.Decimal.Digits
import DurableState.Text.Scan
import DurableState.Time.Calendar
import DurableState.Toml.Value

/-!
# DurableState.Toml.Scalar — strings, numbers and times in TOML

The lexical forms of TOML 1.0. Once a form can be told from all others, what is wrong inside it is a
final stop.
-/

namespace DurableState.Toml

open Scan

/-! ## Blanks and comments -/

/-- A blank within a line. -/
def isSpace (c : Char) : Bool := c == ' ' || c == '\t'

/-- Blanks within a line. -/
def spaces : Scan Unit := do let _ ← span isSpace

/-- Stops behind a character that was taken, or in front of one that takes several bytes. -/
def stopBehind {α : Type} (c : Char) : Scan α := fun cs =>
  stopAt (if c.utf8Size = 1 then cs else c :: cs) cs

/-- The end of a line. Another character in its place is taken before it stops. -/
def newline : Scan Unit := do
  match ← satisfy fun _ => true with
  | '\n' => return ()
  | '\r' => char '\n'
  | c => stopBehind c

/-- Whether a character may stand in a comment: a tab, or one that is not a control character. -/
def isPlain (c : Char) : Bool := c == '\t' || (' ' ≤ c && c != '\x7f')

/-- A comment up to the end of its line. -/
def comment : Scan Unit := do
  char '#'
  let _ ← span isPlain

/-- Blanks, and at most `n` ends of lines with or without a comment. -/
def fillerLines : Nat → Scan Unit
  | 0 => spaces
  | n + 1 => do
    spaces
    match (← here).head? with
    | some '#' =>
      comment
      newline
      fillerLines n
    | some '\n' | some '\r' =>
      newline
      fillerLines n
    | _ => return ()

/-- Blanks, comments and ends of lines. -/
def filler : Scan Unit := fun cs => fillerLines cs.length cs

/-- What may stand behind a statement. -/
def lineEnd : Scan Unit := do
  spaces
  let _ ← maybe comment
  newline <|> finish

/-! ## Strings -/

/-- The mark around strings with escapes. -/
def quotation : Char := '\x22'

/-- The mark around strings without escapes. -/
def apostrophe : Char := '\x27'

/-- The character with a given number in hexadecimal digits. -/
def numbered (digits : List Char) : Option Char := do
  let n ← digits.foldlM (fun n c => (Decimal.hexValue? c).map (16 * n + ·)) 0
  if n.isValidChar then some (Char.ofNat n) else none

/-- A character given by its number in a fixed count of hexadecimal digits. It stops in front of
them. -/
def byNumber (count : Nat) : Scan Char := fun cs =>
  let digits := cs.take count
  match numbered digits with
  | some c => if digits.length = count then .ok (c, cs.drop count) else stop cs
  | none => stop cs

/-- An escape for one character. -/
def escaped : Scan Char := do
  char '\\'
  match ← satisfy fun _ => true with
  | 'b' => return '\x08'
  | 't' => return '\t'
  | 'n' => return '\n'
  | 'f' => return '\x0c'
  | 'r' => return '\r'
  | '\\' => return '\\'
  | 'u' => committed (byNumber 4)
  | 'U' => committed (byNumber 8)
  | c => if c = quotation then return quotation else committed (stopBehind c)

/-- The string that pieces make up. -/
def joined (pieces : List (List Char)) : String := String.ofList pieces.flatten

/-- A string on one line with escapes. -/
def basicString : Scan String := do
  char quotation
  let plain := span1 fun c => isPlain c && c != quotation && c != '\\'
  let pieces ← repeated (plain <|> (do return [← escaped]))
  committed (char quotation)
  return joined pieces

/-- A string on one line without escapes. -/
def literalString : Scan String := do
  char apostrophe
  let content ← span fun c => isPlain c && c != apostrophe
  committed (char apostrophe)
  return String.ofList content

/-- The end of a line inside a string; it counts as one character. -/
def brokenLine : Scan (List Char) := do
  newline
  return ['\n']

/-- A line that goes on behind a backslash at its end: blanks and ends of lines are left out. -/
def continuedLine : Scan (List Char) := do
  char '\\'
  spaces
  newline
  let _ ← repeated ((do let _ ← span1 isSpace) <|> newline)
  return []

/-- Marks inside a string that three of them end, and the content behind them. -/
def innerMarks (marks : List Char) (content : Scan (List Char)) : Scan (List Char) := do
  text marks
  return marks ++ (← content)

/-- Another character than a mark has to be ahead. Takes nothing. -/
def notMark (mark : Char) : Scan Unit := do
  if (← here).head?.all (· == mark) then stop

/-- The end of a string of several lines; one or two marks in front of it belong to the string. -/
def closingMarks (mark : Char) : Scan (List Char) :=
  (do text [mark, mark, mark, mark, mark]; return [mark, mark]) <|>
    (do text [mark, mark, mark, mark]; return [mark]) <|>
    (do committed (text [mark, mark, mark]); return [])

/-- A string of several lines, made of pieces: content, or one or two marks with content behind
them, which `inner` reads. An end of line right behind its start is left out. -/
def longString (mark : Char) (content inner : Scan (List Char)) : Scan String := do
  text [mark, mark, mark]
  let _ ← maybe newline
  let pieces ← repeated (content <|> innerMarks [mark, mark] inner <|> innerMarks [mark] inner)
  let marks ← closingMarks mark
  return joined (pieces ++ [marks])

/-- A string of several lines with escapes. Marks with anything but a mark behind them belong to it,
so content has to follow. -/
def longBasicString : Scan String :=
  let content : Scan (List Char) :=
    (span1 fun c => isPlain c && c != quotation && c != '\\') <|> brokenLine <|> continuedLine <|>
      (do return [← escaped])
  longString quotation content do
    notMark quotation
    content <|> committed stop

/-- A string of several lines without escapes. -/
def longLiteralString : Scan String :=
  let content := (span1 fun c => isPlain c && c != apostrophe) <|> brokenLine
  longString apostrophe content content

/-- Any string. Three marks always start one of several lines. -/
def string : Scan String := longBasicString <|> basicString <|> longLiteralString <|> literalString

/-! ## Numbers -/

/-- Digits with single underscores between them. -/
def digitRun (isDigit : Char → Bool) : Scan (List Char) := do
  let first ← satisfy isDigit
  let more ← repeated (satisfy isDigit <|> (do char '_'; committed (satisfy isDigit)))
  return first :: more

/-- A sign, if there is one: whether it is negative, and as written. -/
def sign : Scan (Bool × List Char) :=
  (do char '-'; return (true, ['-'])) <|> (do char '+'; return (false, ['+'])) <|>
    return (false, [])

/-- Digits without a leading zero, or a single zero. -/
def wholeDigits : Scan (List Char) := (do char '0'; return ['0']) <|> digitRun Char.isDigit

/-- Reads a number. One that is out of range is a final stop where it starts. -/
def inRange {α : Type} (s : Scan α) (p : α → Bool) : Scan α := do
  let start ← here
  let a ← s
  if p a then return a else committed (stopAt start)

/-- Whether an integer fits a signed word of 64 bits. -/
def fits (i : Int) : Bool := -9223372036854775808 ≤ i && i < 9223372036854775808

/-- An integer in another base, behind its mark. -/
def basedInteger (mark : Char) (base : Nat) : Scan Int := do
  text ['0', mark]
  let digits ← committed (digitRun fun c => (Decimal.hexValue? c).any (· < base))
  return (digits.foldl (fun n c => base * n + (Decimal.hexValue? c).getD 0) 0 : Nat)

/-- An integer in digits. -/
def digitInteger : Scan Int := do
  let (negative, _) ← sign
  let n := Decimal.value (← wholeDigits)
  return if negative then -n else n

/-- An integer. -/
def integer : Scan Int :=
  inRange (basedInteger 'x' 16 <|> basedInteger 'o' 8 <|> basedInteger 'b' 2 <|> digitInteger) fits

/-- Whether a decimal number `n * 10 ^ e` is too great for a double: it would not round to one below
`2 ^ 1024`. -/
def isTooGreat (n : Nat) (e : Int) : Bool :=
  let size : Int := (Decimal.digitChars n).length + e
  if n = 0 || size < 300 then false
  else if size > 320 then true
  else decide ((Nat.pow 2 1024 - Nat.pow 2 970) * Nat.pow 10 (-e).toNat ≤ n * Nat.pow 10 e.toNat)

/-- The exponent of a float: its value and as written. -/
def exponent : Scan (Int × List Char) := do
  let mark ← satisfy fun c => c == 'e' || c == 'E'
  let (negative, written) ← sign
  let digits ← committed (digitRun Char.isDigit)
  let n := Decimal.value digits
  return (if negative then -n else n, mark :: written ++ digits)

/-- The digits behind the point of a float. -/
def fraction : Scan (List Char) := do
  char '.'
  committed (digitRun Char.isDigit)

/-- A float in digits, and whether it is in range. A positive one has to be finite. -/
def digitFloat : Scan (Bool × String) := do
  let (negative, written) ← sign
  let whole ← wholeDigits
  let (places, power) ← (do return (none, some (← exponent))) <|> do
    let places ← fraction
    return (some places, ← maybe exponent)
  let digits := whole ++ places.getD []
  let e : Int := (power.map (·.1)).getD 0 - (places.getD []).length
  return (negative || !isTooGreat (Decimal.value digits) e,
    String.ofList (written ++ whole ++ (places.elim [] ('.' :: ·)) ++ (power.elim [] (·.2))))

/-- A float that is infinite or no number. -/
def namedFloat : Scan String := do
  let (_, written) ← sign
  (do text ['i', 'n', 'f']; return String.ofList (written ++ ['i', 'n', 'f'])) <|>
    (do text ['n', 'a', 'n']; return String.ofList (written ++ ['n', 'a', 'n']))

/-- A float. -/
def float : Scan String := (do return (← inRange digitFloat (·.1)).2) <|> namedFloat

/-! ## Times -/

/-- A fixed count of digits with a value in a range. -/
def field (count lo hi : Nat) : Scan (Nat × List Char) := fun cs =>
  let digits := cs.take count
  let n := Decimal.value digits
  if digits.length = count ∧ digits.all Char.isDigit ∧ lo ≤ n ∧ n ≤ hi then
    .ok ((n, digits), cs.drop count)
  else stop cs

/-- A date. -/
def date : Scan (List Char) := do
  let (year, y) ← field 4 0 9999
  char '-'
  committed do
    let (month, m) ← field 2 1 12
    char '-'
    let (_, d) ← field 2 1 (Calendar.daysInMonth year month)
    return y ++ '-' :: m ++ '-' :: d

/-- A time of day. -/
def time : Scan (List Char) := do
  let (_, h) ← field 2 0 23
  char ':'
  committed do
    let (_, m) ← field 2 0 59
    char ':'
    let (_, s) ← field 2 0 60
    let places ← maybe do
      char '.'
      span1 Char.isDigit
    return h ++ ':' :: m ++ ':' :: s ++ places.elim [] ('.' :: ·)

/-- An offset from universal time. -/
def zone : Scan (List Char) :=
  (do return [← satisfy fun c => c == 'Z' || c == 'z']) <|> do
    let sign ← satisfy fun c => c == '+' || c == '-'
    committed do
      let (_, h) ← field 2 0 23
      char ':'
      let (_, m) ← field 2 0 59
      return sign :: h ++ ':' :: m

/-- The time of day behind a date. -/
def timeOfDate : Scan (List Char) := do
  let divider ← satisfy fun c => c == 'T' || c == 't' || c == ' '
  let t ← time
  let z ← maybe zone
  return divider :: t ++ z.getD []

/-- A date, a date with a time of day, or a time of day. -/
def dateTime : Scan String :=
  (do
    let d ← date
    let t ← maybe timeOfDate
    return String.ofList (d ++ t.getD [])) <|>
  (do return String.ofList (← time))

end DurableState.Toml
