import DurableState.Json.Fault
import DurableState.Json.Token
import DurableState.Text.Utf8

/-!
# DurableState.Json.Check — looking for the first fault in a text

A check goes through the bytes of a text from the front, beside what a document should hold, and
stops at the first fault. It takes no value out of the text; that is done with the whole tree, and
only for a text without faults. What a document passes over is checked less closely: its strings may
hold anything between their marks, its numbers may be of any size, and it may nest without limit.
-/

namespace DurableState.Json

/-- Why a check stopped, and how many bytes were left. A fault may lie in the byte ahead, which then
counts as read. -/
structure Stop where
  cause : Cause
  left : Nat
  ahead : Bool
deriving Repr, DecidableEq, Inhabited

/-- Goes through the bytes of a text. -/
abbrev Check (α : Type) := StateT (List UInt8) (Except Stop) α

namespace Check

variable {α : Type}

/-! ## Bytes -/

/-- Stops behind what was taken. -/
def stop (cause : Cause) : Check α := fun rest => .error ⟨cause, rest.length, false⟩

/-- Stops at the byte ahead. -/
def stopAhead (cause : Cause) : Check α := fun rest => .error ⟨cause, rest.length, true⟩

/-- Stops before some of the bytes that were taken last. -/
def stopBefore (count : Nat) (cause : Cause) : Check α := fun rest =>
  .error ⟨cause, rest.length + count, false⟩

/-- The byte ahead. Bytes stand for the characters of the same number; only those of ASCII mean
anything in the form of a text. -/
def peek : Check (Option Char) := fun rest => .ok (rest.head?.map Char.ofUInt8, rest)

/-- Takes the byte ahead. -/
def next : Check (Option Char) := fun rest => .ok (rest.head?.map Char.ofUInt8, rest.tail)

/-- Takes the byte ahead, whatever it is. -/
def skip : Check Unit := do let _ ← next

/-- Takes the bytes ahead that meet a condition. -/
def span (p : Char → Bool) : Check (List UInt8) := fun rest =>
  let p := fun b => p (Char.ofUInt8 b)
  .ok (rest.takeWhile p, rest.dropWhile p)

/-- The byte ahead, behind blanks. -/
def ahead : Check (Option Char) := do
  let _ ← span Scanner.isBlank
  peek

/-- Runs a check that counts its rounds. Each of them takes a byte, so the length of the text bounds
their number. -/
def bounded (rounds : Nat → Check α) : Check α := fun rest => rounds (rest.length + 1) rest

/-! ## Words -/

/-- The rest of a word. -/
def word : List Char → Check Unit
  | [] => return
  | c :: cs => do
    match ← next with
    | none => stop .endInValue
    | some d => if d = c then word cs else stop .expectedWord

/-- `null`, `true` or `false`, from its first letter on. -/
def wordFrom (first : Char) : Check Unit := do
  skip
  word (if first = 'n' then ['u', 'l', 'l'] else if first = 't' then ['r', 'u', 'e']
    else ['a', 'l', 's', 'e'])

/-! ## Numbers -/

/-- Digits. -/
def digits : Check (List Char) := do return (← span Char.isDigit).map Char.ofUInt8

/-- The digits in front of the point: a zero stands alone. -/
def whole : Check (List Char) := do
  match ← next with
  | none => stop .endInValue
  | some c =>
    if !c.isDigit then stop .invalidNumber
    else if c = '0' then
      if (← peek).any Char.isDigit then stopAhead .invalidNumber else return [c]
    else return c :: (← digits)

/-- The point and the digits behind it, if there is a point. -/
def fraction : Check (List Char) := do
  if (← peek) ≠ some '.' then return []
  skip
  let ds ← digits
  if !ds.isEmpty then return ds
  else if (← peek).isSome then stopAhead .invalidNumber
  else stopAhead .endInValue

/-- The sign of an exponent, if there is one: whether it is negative. -/
def exponentSign : Check Bool := do
  match ← peek with
  | some '+' => skip; return false
  | some '-' => skip; return true
  | _ => return false

/-- How many digits of an exponent it takes to exceed 31 bits. -/
def excess? (ds : List Char) : Option Nat :=
  (List.range (ds.length + 1)).find? fun k => decide (2147483648 ≤ Decimal.value (ds.take k))

/-- The exponent, if there is one. One of more than 31 bits is too great at once, unless it is
negative or all other digits are zeros. -/
def exponent (isZero : Bool) : Check (Option Numeral.Exponent) := do
  let mark ← peek
  if mark ≠ some 'e' ∧ mark ≠ some 'E' then return none
  skip
  let negative ← exponentSign
  match ← next with
  | none => stop .endInValue
  | some c =>
    if !c.isDigit then stop .invalidNumber
    else
      let ds := c :: (← digits)
      match excess? ds with
      | none => return some ⟨negative, ds⟩
      | some k =>
        if negative || isZero then return some ⟨negative, ds⟩
        else stopBefore (ds.length - k) .numberOutOfRange

/-- A number behind its sign. -/
def number (negative : Bool) : Check Number := do
  let w ← whole
  let f ← fraction
  let e ← exponent ((w ++ f).all (· == '0'))
  match (Numeral.mk negative w f e).toNumber? with
  | some n => return n
  | none => stop .numberOutOfRange

/-- A number, of which the first byte is ahead. -/
def numberFrom (first : Char) : Check Number := do
  if first = '-' then
    skip
    number true
  else number false

/-- Whether a number may start with a byte. -/
def startsNumber (c : Char) : Bool := c == '-' || c.isDigit

/-- Passes over a number behind its sign. -/
def skipNumber : Check Unit := do
  let first ← next
  if !first.any Char.isDigit then stop .invalidNumber
  else if first = some '0' then
    if (← peek).any Char.isDigit then stopAhead .invalidNumber
  else
    let _ ← digits
  if (← peek) = some '.' then
    skip
    if (← digits).isEmpty then stopAhead .invalidNumber
  let mark ← peek
  if mark = some 'e' ∨ mark = some 'E' then
    skip
    let _ ← exponentSign
    if !(← next).any Char.isDigit then stop .invalidNumber
    let _ ← digits

/-! ## Strings -/

/-- Whether a byte stands for itself in a string. -/
def isPlain (c : Char) : Bool := 32 ≤ c.toNat && c != '"' && c != '\\'

/-- The four digits of an escape. -/
def fourDigits : Check Nat := fun rest =>
  match rest with
  | a :: b :: c :: d :: rest =>
    match [a, b, c, d].mapM fun b => Decimal.hexValue? (Char.ofUInt8 b) with
    | some ds => .ok (ds.foldl (fun n d => 16 * n + d) 0, rest)
    | none => .error ⟨.invalidEscape, rest.length, false⟩
  | _ => .error ⟨.endInString, 0, false⟩

/-- A byte in front of the second half of a pair. -/
def pairMark (c : Char) : Check Unit := do
  match ← peek with
  | none => stop .endInString
  | some d =>
    skip
    if d ≠ c then stop .halfPair

/-- The character of an escape in digits; one beyond 16 bits takes a pair of them. -/
def numberedChar : Check Char := do
  let high ← fourDigits
  if isLowSurrogate high then stop .lonePart
  else if !isHighSurrogate high then return Char.ofNat high
  else
    pairMark '\\'
    pairMark 'u'
    let low ← fourDigits
    if isLowSurrogate low then
      return Char.ofNat (0x10000 + (high - 0xD800) * 1024 + (low - 0xDC00))
    else stop .lonePart

/-- The character of an escape, behind its backslash. -/
def escaped : Check Char := do
  match ← next with
  | none => stop .endInString
  | some 'u' => numberedChar
  | some c =>
    match simpleEscape? c with
    | some d => return d
    | none => stop .invalidEscape

/-- The bytes of a string, up to the mark behind it. -/
def stringBytes : Nat → Check (List UInt8)
  | 0 => stop .endInString
  | rounds + 1 => do
    let plain ← span isPlain
    match ← next with
    | none => stop .endInString
    | some '"' => return plain
    | some '\\' =>
      let c ← escaped
      return plain ++ (String.singleton c).toUTF8.data.toList ++ (← stringBytes rounds)
    | some _ => stop .controlCharacter

/-- A string, behind the mark in front of it. Bytes that are no text count back from its end, as
many as the string itself holds from the first of them on. -/
def string : Check String := do
  let bytes ← bounded stringBytes
  match String.fromUTF8? ⟨bytes.toArray⟩ with
  | some s => return s
  | none => stopBefore (bytes.length - Utf8.textSize bytes) .notUtf8

/-- Passes over an escape, behind its backslash. -/
def skipEscape : Check Unit := do
  match ← next with
  | none => stop .endInString
  | some 'u' => let _ ← fourDigits
  | some c => if (simpleEscape? c).isNone then stop .invalidEscape

/-- Passes over a string, behind the mark in front of it. -/
def skipString : Nat → Check Unit
  | 0 => stop .endInString
  | rounds + 1 => do
    let _ ← span isPlain
    match ← peek with
    | none => stop .endInString
    | some '"' => skip
    | some '\\' =>
      skip
      skipEscape
      skipString rounds
    | some _ => stop .controlCharacter

/-! ## Arrays and objects -/

/-- Whether an array goes on, behind its bracket or an item. -/
def hasItem (first : Bool) : Check Bool := do
  match ← ahead with
  | none => stopAhead .endInArray
  | some ']' => return false
  | some c =>
    if first then return true
    else if c = ',' then
      skip
      match ← ahead with
      | none => stopAhead .endInValue
      | some ']' => stopAhead .trailingComma
      | some _ => return true
    else stopAhead .expectedItem

/-- The end of an array. -/
def closeArray : Check Unit := do
  match ← ahead with
  | none => stopAhead .endInArray
  | some ']' => skip
  | some ',' =>
    skip
    if (← ahead) = some ']' then stopAhead .trailingComma else stopAhead .trailingText
  | some _ => stopAhead .trailingText

/-- Whether an object goes on, behind its brace or a field. -/
def hasField (first : Bool) : Check Bool := do
  match ← ahead with
  | none => stopAhead .endInObject
  | some '\x7d' => return false
  | some c =>
    if first then
      if c = '"' then return true else stopAhead .expectedKey
    else if c = ',' then
      skip
      match ← ahead with
      | none => stopAhead .endInValue
      | some '"' => return true
      | some '\x7d' => stopAhead .trailingComma
      | some _ => stopAhead .expectedKey
    else stopAhead .expectedField

/-- The end of an object. -/
def closeObject : Check Unit := do
  match ← ahead with
  | none => stopAhead .endInObject
  | some '\x7d' => skip
  | some ',' => stopAhead .trailingComma
  | some _ => stopAhead .trailingText

/-- A key, of which the mark is ahead. -/
def key : Check String := do
  skip
  string

/-- The colon behind a key. -/
def colon : Check Unit := do
  match ← ahead with
  | none => stopAhead .endInObject
  | some ':' => skip
  | some _ => stopAhead .expectedColon

/-- All items of an array. -/
def items (item : Check Unit) : (rounds : Nat) → (first : Bool) → Check Unit
  | 0, _ => stop .endInArray
  | rounds + 1, first => do
    if ← hasItem first then
      item
      items item rounds false

/-- All fields of an object with any keys. -/
def entries (value : Check Unit) : (rounds : Nat) → (first : Bool) → Check Unit
  | 0, _ => stop .endInObject
  | rounds + 1, first => do
    if ← hasField first then
      let _ ← key
      colon
      value
      entries value rounds false

/-- An array of which the bracket is ahead. -/
def array (item : Check Unit) : Check Unit := do
  skip
  bounded fun rounds => items item rounds true
  closeArray

/-- An object of which the brace is ahead. -/
def object (value : Check Unit) : Check Unit := do
  skip
  bounded fun rounds => entries value rounds true
  closeObject

/-! ## Values that are passed over -/

/-- Whether arrays and objects that are open on the way go on: behind an opening mark there may be
no comma, behind a value there has to be one. -/
inductive Passage where
  | value
  | behind (comma : Bool)

/-- Passes over a key and its colon. -/
def skipKey : Check Unit := do
  match ← ahead with
  | none => stopAhead .endInObject
  | some '"' =>
    skip
    bounded skipString
    colon
  | some _ => stopAhead .expectedKey

/-- Passes over a value and all that follows up to the end of the outermost array or object that is
open; `frames` are their opening marks, innermost first. -/
def pass : (rounds : Nat) → Passage → (frames : List Char) → Check Unit
  | 0, _, _ => stop .endInValue
  | rounds + 1, .value, frames => do
    match ← ahead with
    | none => stopAhead .endInValue
    | some c =>
      if c = 'n' ∨ c = 't' ∨ c = 'f' then
        wordFrom c
        pass rounds (.behind true) frames
      else if startsNumber c then
        if c = '-' then skip
        skipNumber
        pass rounds (.behind true) frames
      else if c = '"' then
        skip
        bounded skipString
        pass rounds (.behind true) frames
      else if c = '[' ∨ c = '\x7b' then
        skip
        pass rounds (.behind false) (c :: frames)
      else stopAhead .expectedValue
  | _ + 1, .behind _, [] => return
  | rounds + 1, .behind comma, frame :: frames => do
    let inObject := frame == '\x7b'
    match ← ahead with
    | none => stopAhead (if inObject then .endInObject else .endInArray)
    | some c =>
      if c = (if inObject then '\x7d' else ']') then
        skip
        pass rounds (.behind true) frames
      else if comma && c != ',' then stopAhead (if inObject then .expectedField else .expectedItem)
      else
        if comma then skip
        if inObject then skipKey
        pass rounds .value (frame :: frames)

/-- Passes over a value. -/
def skipValue : Check Unit := fun rest => pass (2 * rest.length + 2) .value [] rest

/-! ## Values that do not fit -/

/-- Stops at a value of the wrong type, behind it if it holds no other values. -/
def mismatch (expected : String) : Check α := do
  match ← peek with
  | none => stopAhead .endInValue
  | some c =>
    if c = 'n' then
      wordFrom c
      stop (.wrongType .null expected)
    else if c = 't' ∨ c = 'f' then
      wordFrom c
      stop (.wrongType (.bool (c == 't')) expected)
    else if startsNumber c then
      let n ← numberFrom c
      stop (.wrongType (.num n) expected)
    else if c = '"' then
      skip
      let s ← string
      stop (.wrongType (.str s) expected)
    else if c = '[' then stop (.wrongType .arr expected)
    else if c = '\x7b' then stop (.wrongType .obj expected)
    else stopAhead .expectedValue

end Check

/-! ## Documents -/

/-- Checks a value; the number says how many more levels may be entered. -/
abbrev Checker := Nat → Check Unit

namespace Checker

open Check

/-- The first byte of a value. -/
def first : Check Char := do
  match ← ahead with
  | none => stopAhead .endInValue
  | some c => return c

/-- Enters an array or object, of which the opening mark is ahead. -/
def enter (room : Nat) (inside : Nat → Check Unit) : Check Unit :=
  match room with
  | 0 => stopAhead .tooDeep
  | room + 1 => inside room

/-- A string that has a reader of its own, which says what it refuses. -/
def stringFor (expected : String) (refuse : String → Option Cause) : Checker := fun _ => do
  if (← first) = '"' then
    skip
    let s ← string
    match refuse s with
    | some cause => stop cause
    | none => return
  else mismatch expected

/-- A string. -/
def string : Checker := stringFor "a string" fun _ => none

/-- A truth value. -/
def bool : Checker := fun _ => do
  let c ← first
  if c = 't' ∨ c = 'f' then wordFrom c else mismatch "a boolean"

/-- An integer from `least` to below `bound`, written as one. -/
def integer (name : String) (least bound : Int) : Checker := fun _ => do
  let c ← first
  if startsNumber c then
    let n ← numberFrom c
    match n with
    | .int i => if i < least ∨ bound ≤ i then stop (.wrongValue (.num n) name)
    | .float _ => stop (.wrongType (.num n) name)
  else mismatch name

/-- An unsigned word of 64 bits. -/
def word64 : Checker := integer "u64" 0 UInt64.size

/-- An unsigned word of 32 bits. -/
def word32 : Checker := integer "u32" 0 UInt32.size

/-- A signed word of 32 bits. -/
def int32 : Checker := integer "i32" (-2147483648) 2147483648

/-- A value, or `null` for none. -/
def nullable (c : Checker) : Checker := fun room => do
  if (← ahead) = some 'n' then wordFrom 'n' else c room

/-- An array of values. -/
def list (c : Checker) : Checker := fun room => do
  if (← first) = '[' then enter room fun room => array (c room) else mismatch "a sequence"

/-- An object as a map. -/
def map (c : Checker) : Checker := fun room => do
  if (← first) = '\x7b' then enter room fun room => object (c room) else mismatch "a map"

/-- Any value, in which arrays and objects hold values of the given kind. -/
def jsonOf (inner : Option (Check Unit)) : Check Unit := do
  let c ← first
  if c = 'n' ∨ c = 't' ∨ c = 'f' then wordFrom c
  else if startsNumber c then
    let _ ← numberFrom c
  else if c = '"' then
    skip
    let _ ← Check.string
  else if c = '[' then
    match inner with
    | some item => array item
    | none => stopAhead .tooDeep
  else if c = '\x7b' then
    match inner with
    | some value => object value
    | none => stopAhead .tooDeep
  else stopAhead .expectedValue

/-- Any value. -/
def json : Checker
  | 0 => jsonOf none
  | room + 1 => jsonOf (some (json room))

/-- A string out of some words. An object with the word as its only key and `null` as its value will
do as well. -/
def oneOf (words : List String) : Checker := fun room => do
  let known := stringFor "variant identifier" fun s =>
    if words.contains s then none else some (.unknownWord s words)
  match ← first with
  | '"' => known room
  | '\x7b' =>
    enter room fun room => do
      skip
      match ← ahead with
      | none => stopAhead .endInObject
      | some '\x7d' => stopAhead .expectedValue
      | some c => if c ≠ '"' then stopAhead .expectedKey
      known room
      colon
      let c ← first
      if c = 'n' then wordFrom c else mismatch "unit"
      match ← ahead with
      | none => stop .endInObject
      | some '\x7d' => skip
      | some _ => stop .expectedValue
  | _ => stopAhead .expectedValue

/-! ## Records -/

/-- A field of a record. -/
structure Field where
  name : String
  isNeeded : Bool
  value : Checker

/-- A field that has to be present. -/
def Field.required (name : String) (value : Checker) : Field := ⟨name, true, value⟩

/-- A field that may be missing. -/
def Field.optional (name : String) (value : Checker) : Field := ⟨name, false, value⟩

/-- The fields of a record in an object, and its end. A field that is missing is noticed at the end,
one that stands twice behind its key. -/
def byName (fields : List Field) (room : Nat) :
    (rounds : Nat) → (first : Bool) → (seen : List String) → Check Unit
  | 0, _, _ => stop .endInObject
  | rounds + 1, first, seen => do
    if ← hasField first then
      let k ← key
      match fields.find? (·.name == k) with
      | none =>
        colon
        skipValue
        byName fields room rounds false seen
      | some f =>
        if seen.contains k then
          if (← ahead) = some '\x7d' then skip
          stop (.repeatedField k)
        colon
        f.value room
        byName fields room rounds false (k :: seen)
    else
      skip
      match fields.find? fun f => f.isNeeded && !seen.contains f.name with
      | some f => stop (.missingField f.name)
      | none => return

/-- The fields of a record in an array; the last ones may be left out if none of them has to be
present. -/
def byPlace (expected : String) (room : Nat) : (place : Nat) → List Field → Check Unit
  | _, [] => closeArray
  | place, f :: fields => do
    if ← hasItem (place == 0) then
      f.value room
      byPlace expected room (place + 1) fields
    else if f.isNeeded then
      skip
      stop (.wrongLength place expected)
    else byPlace expected room (place + 1) fields

/-- A record: an object of its fields, or an array of them in their order. -/
def record (name : String) (fields : List Field) : Checker := fun room => do
  let name := "struct " ++ name
  match ← first with
  | '\x7b' =>
    enter room fun room => do
      skip
      bounded fun rounds => byName fields room rounds true []
  | '[' =>
    enter room fun room => do
      skip
      let count := Decimal.text fields.length ++
        if fields.length = 1 then " element" else " elements"
      byPlace (name ++ " with " ++ count) room 0 fields
  | _ => mismatch name

/-! ## Faults -/

/-- A whole text. -/
def whole (c : Checker) (room : Nat) : Check Unit := do
  c room
  if (← ahead).isSome then stopAhead .trailingText

/-- The fault at which a check of a text stopped. -/
def faultAt (text : List UInt8) (s : Stop) : Fault :=
  let read := text.take (text.length - s.left + if s.ahead then 1 else 0)
  { cause := s.cause
    line := read.count 10 + 1
    column := (read.reverse.takeWhile (· != 10)).length }

/-- The first fault in a text that is refused. -/
def fault (c : Checker) (room : Nat) (text : List UInt8) : Fault :=
  match whole c room text with
  | .error s => faultAt text s
  | .ok (_, rest) => faultAt text ⟨.expectedValue, rest.length, false⟩

end Checker

end DurableState.Json
