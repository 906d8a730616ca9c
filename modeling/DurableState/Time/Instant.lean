import DurableState.Json.Document
import DurableState.Text.Blank
import DurableState.Time.Calendar

/-!
# DurableState.Time.Instant — points in time and their text

Times are written as `2024-05-06T07:08:09.123Z`. Reading takes more: blanks between the parts, one
digit where two are usual, a blank or `t` for the `T`, and any offset from universal time. Second 60
is read as second 59 with a thousand million nanoseconds on top.
-/

namespace DurableState

/-- A point in time: seconds since 1970 and nanoseconds. In a leap second there are a thousand
million nanoseconds or more. -/
structure Instant where
  seconds : Int
  nanos : Nat
deriving Repr, DecidableEq, Inhabited

namespace Instant

/-! ## Writing -/

/-- A number with zeros in front up to a width. -/
def padded (width n : Nat) : String :=
  let digits := Decimal.digitChars n
  String.ofList (List.replicate (width - digits.length) '0' ++ digits)

/-- A year has four digits; one that does not fit has a sign as well. -/
def yearText (year : Int) : String :=
  if 0 ≤ year ∧ year ≤ 9999 then padded 4 year.toNat
  else (if year < 0 then "-" else "+") ++ padded 4 year.natAbs

/-- The fraction of a second in none, three, six or nine digits, as few as keep it whole. -/
def fractionText (nanos : Nat) : String :=
  if nanos = 0 then ""
  else if nanos % 1000000 = 0 then "." ++ padded 3 (nanos / 1000000)
  else if nanos % 1000 = 0 then "." ++ padded 6 (nanos / 1000)
  else "." ++ padded 9 nanos

/-- The text of an instant, in universal time. -/
def text (t : Instant) : String :=
  let date := Calendar.ofDayNumber (t.seconds / 86400)
  let clock := (t.seconds % 86400).toNat
  let second := clock % 60 + t.nanos / 1000000000
  yearText date.year ++ "-" ++ padded 2 date.month ++ "-" ++ padded 2 date.day ++ "T" ++
    padded 2 (clock / 3600) ++ ":" ++ padded 2 (clock / 60 % 60) ++ ":" ++ padded 2 second ++
    fractionText (t.nanos % 1000000000) ++ "Z"

/-! ## Reading -/

/-- What is wrong with the text of a time. -/
inductive Fault where
  | tooShort
  | invalid
  | outOfRange
  | impossible
  | tooLong
deriving Repr, DecidableEq, Inhabited

/-- What is wrong, in words. -/
def Fault.message : Fault → String
  | .tooShort => "premature end of input"
  | .invalid => "input contains invalid characters"
  | .outOfRange => "input is out of range"
  | .impossible => "no possible date and time matching input"
  | .tooLong => "trailing input"

/-- Reads a part of a time off the front of a text. -/
abbrev Reader (α : Type) := StateT (List Char) (Except Fault) α

/-- Blanks, if there are any. -/
def blanks : Reader Unit := modify Text.trimLeft

/-- A number in a range. -/
def inRange (least greatest n : Int) : Reader Int :=
  if least ≤ n ∧ n ≤ greatest then return n else throw .outOfRange

/-- A number of one digit up to `width`. It fits a signed word of 64 bits. -/
def digits (width : Nat) : Reader Nat := do
  let cs ← get
  let ds := (cs.take width).takeWhile Char.isDigit
  if cs.isEmpty then throw .tooShort
  if ds.isEmpty then throw .invalid
  if 9223372036854775808 ≤ Decimal.value ds then throw .outOfRange
  set (cs.drop ds.length)
  return Decimal.value ds

/-- A number of one or two digits in a range; blanks may stand in front. -/
def number (least greatest : Nat) : Reader Nat := do
  blanks
  return (← inRange least greatest (← digits 2)).toNat

/-- A year: up to four digits, or a sign and any number of digits. -/
def year : Reader Int := do
  blanks
  let y : Int ← match ← get with
    | '-' :: cs => do set cs; pure (-(← digits cs.length : Nat))
    | '+' :: cs => do set cs; pure (← digits cs.length : Nat)
    | _ => do pure (← digits 4 : Nat)
  inRange (-2147483648) 2147483647 y

/-- A mark; blanks may stand in front. -/
def mark (c : Char) : Reader Unit := do
  blanks
  match ← get with
  | [] => throw .tooShort
  | d :: cs => if d = c then set cs else throw .invalid

/-- What divides the date from the time of day: exactly one character. -/
def divider : Reader Unit := do
  match ← get with
  | [] => throw .tooShort
  | 'T' :: cs | 't' :: cs | ' ' :: cs => set cs
  | _ => throw .invalid

/-- A fraction of a second in nanoseconds, if there is one; digits behind the ninth do not count. -/
def fraction : Reader Nat := do
  match ← get with
  | '.' :: cs =>
    set cs
    let n ← digits 9
    let count := cs.length - (← get).length
    modify fun cs => cs.dropWhile Char.isDigit
    return n * Nat.pow 10 (9 - count)
  | _ => return 0

/-- Two digits, with nothing in front, of which the first is not above a bound. -/
def twoDigits (greatest : Char) : Reader Nat := do
  match ← get with
  | [] => throw .tooShort
  | a :: cs =>
    let b := cs.head?
    -- a character of more than one byte is long enough
    if b.isNone ∧ a.utf8Size = 1 then throw .tooShort
    if !(a.isDigit && b.any Char.isDigit) then throw .invalid
    if greatest < a then throw .outOfRange
    set cs.tail
    return Decimal.value (a :: b.toList)

/-- Hours and minutes, in seconds. -/
def hoursAndMinutes : Reader Int := do
  let hours ← twoDigits '9'
  modify fun cs => cs.dropWhile fun c => c == ':' || Text.isBlank c
  let minutes ← twoDigits '5'
  return hours * 3600 + minutes * 60

/-- The offset from universal time in seconds: `UTC` or `Z` in either case, or hours and minutes
with a sign. -/
def offset : Reader Int := do
  blanks
  let cs ← get
  if (cs.take 3).map Char.toUpper = ['U', 'T', 'C'] then
    set (cs.drop 3)
    return 0
  match cs with
  | [] => throw .tooShort
  | c :: cs =>
    set cs
    if c = 'Z' ∨ c = 'z' then return 0
    else if c = '+' then hoursAndMinutes
    else if c = '-' ∨ c = '−' then return -(← hoursAndMinutes)
    else throw .invalid

/-- The years that dates can have. -/
def isYearInRange (year : Int) : Bool := -262143 ≤ year && year ≤ 262142

/-- An instant from a date, a time of day in seconds (with the leap second as the sixtieth), a
fraction and an offset. -/
def ofParts (date : Calendar.Date) (hour minute second nanos : Nat) (offset : Int) :
    Except Fault Instant := do
  if !(isYearInRange date.year && date.isValid && offset.natAbs < 86400) then throw .outOfRange
  let clock : Int := hour * 3600 + minute * 60 + min second 59
  let seconds := Calendar.dayNumber date * 86400 + clock - offset
  if !isYearInRange (Calendar.ofDayNumber (seconds / 86400)).year then throw .impossible
  return { seconds, nanos := nanos + if second = 60 then 1000000000 else 0 }

/-- The text of a time, up to its end. -/
def reader : Reader Instant := do
  let year ← year
  mark '-'
  let month ← number 1 12
  mark '-'
  let day ← number 1 31
  divider
  let hour ← number 0 23
  mark ':'
  let minute ← number 0 59
  mark ':'
  let second ← number 0 60
  let nanos ← fraction
  let offset ← offset
  blanks
  if !(← get).isEmpty then throw .tooLong
  ofParts ⟨year, month, day⟩ hour minute second nanos offset

/-- Reads a time, or says why a text is none. -/
def ofChars (cs : List Char) : Except Fault Instant := (reader.run cs).map (·.1)

/-- Reads a time. -/
def ofChars? (cs : List Char) : Option Instant := (ofChars cs).toOption

end Instant

instance : Document Instant where
  toJson t := .str t.text
  decode room t := (Decoder.string room t).bind fun s => Instant.ofChars? s.toList
  check := .stringFor "an RFC 3339 formatted date and time string" fun s =>
    match Instant.ofChars s.toList with
    | .error fault => some (.refused fault.message)
    | .ok _ => none

end DurableState
