import DurableState.Json.Numeral

/-!
# DurableState.Json.Token — the tokens of a JSON text

The scanner reads one character at a time and keeps the token it is in. Blanks separate tokens and
are dropped; a control character inside a string, an unknown escape or a malformed numeral ends
the reading.
-/

namespace DurableState.Json

/-- A token of a JSON text. -/
inductive Token where
  | openArr
  | closeArr
  | openObj
  | closeObj
  | comma
  | colon
  | null
  | bool (value : Bool)
  | num (value : Numeral)
  /-- `none` if the string does not consist of characters. -/
  | str (value : Option String)
deriving Repr, DecidableEq, Inhabited

/-! ## Strings -/

/-- A part of a string: a character, a UTF-16 unit from an escape, or a byte that belongs to no
character. -/
inductive Piece where
  | char (c : Char)
  | unit (u : Nat)
  | stray
deriving Repr, DecidableEq, Inhabited

/-- Whether a UTF-16 unit opens a surrogate pair. -/
def isHighSurrogate (u : Nat) : Bool := 0xD800 ≤ u && u < 0xDC00

/-- Whether a UTF-16 unit closes a surrogate pair. -/
def isLowSurrogate (u : Nat) : Bool := 0xDC00 ≤ u && u < 0xE000

/-- The characters of a string; `none` if half of a surrogate pair stands alone, or a byte is part
of no character. -/
def joinPieces : List Piece → Option (List Char)
  | [] => some []
  | .stray :: _ => none
  | .char c :: rest => (joinPieces rest).map (c :: ·)
  | .unit h :: .unit l :: rest =>
    if isHighSurrogate h then
      if isLowSurrogate l then
        (joinPieces rest).map (Char.ofNat (0x10000 + (h - 0xD800) * 1024 + (l - 0xDC00)) :: ·)
      else none
    else if isLowSurrogate h then none
    else (joinPieces (.unit l :: rest)).map (Char.ofNat h :: ·)
  | .unit u :: rest =>
    if isHighSurrogate u || isLowSurrogate u then none
    else (joinPieces rest).map (Char.ofNat u :: ·)

/-- The character of a one-letter escape. -/
def simpleEscape? : Char → Option Char
  | '"' => some '"'
  | '\\' => some '\\'
  | '/' => some '/'
  | 'b' => some '\x08'
  | 'f' => some '\x0c'
  | 'n' => some '\n'
  | 'r' => some '\x0d'
  | 't' => some '\t'
  | _ => none

/-! ## The scanner -/

/-- The token that the scanner is in. Characters and parts are kept in reverse. -/
inductive Pending where
  | between
  | word (letters : List Char)
  | numeral (chars : List Char)
  | string (pieces : List Piece)
  | escape (pieces : List Piece)
  | hex (pieces : List Piece) (count value : Nat)
deriving Repr, DecidableEq, Inhabited

/-- The scanner: finished tokens in reverse, and the token it is in. -/
structure Scanner where
  tokens : List Token
  pending : Pending
deriving Repr, DecidableEq, Inhabited

namespace Scanner

/-- The scanner before the first character. -/
def start : Scanner := ⟨[], .between⟩

/-- Whether a character is a blank between tokens. -/
def isBlank (c : Char) : Bool := c == ' ' || c == '\n' || c == '\t' || c == '\x0d'

/-- The token of a word. -/
def wordToken? (letters : List Char) : Option Token :=
  if letters = ['n', 'u', 'l', 'l'] then some .null
  else if letters = ['t', 'r', 'u', 'e'] then some (.bool true)
  else if letters = ['f', 'a', 'l', 's', 'e'] then some (.bool false)
  else none

/-- Takes a character outside of all tokens. -/
def begin (tokens : List Token) (c : Char) : Option Scanner :=
  if isBlank c then some ⟨tokens, .between⟩
  else if c = '"' then some ⟨tokens, .string []⟩
  else if c = '-' ∨ c.isDigit then some ⟨tokens, .numeral [c]⟩
  else if c.isLower then some ⟨tokens, .word [c]⟩
  else if c = '[' then some ⟨.openArr :: tokens, .between⟩
  else if c = ']' then some ⟨.closeArr :: tokens, .between⟩
  else if c = '\x7b' then some ⟨.openObj :: tokens, .between⟩
  else if c = '\x7d' then some ⟨.closeObj :: tokens, .between⟩
  else if c = ',' then some ⟨.comma :: tokens, .between⟩
  else if c = ':' then some ⟨.colon :: tokens, .between⟩
  else none

/-- Takes the next character. -/
def step (s : Scanner) (c : Char) : Option Scanner :=
  match s.pending with
  | .between => begin s.tokens c
  | .word letters =>
    if c.isLower then some ⟨s.tokens, .word (c :: letters)⟩
    else (wordToken? letters.reverse).bind fun t => begin (t :: s.tokens) c
  | .numeral chars =>
    if Numeral.isNumeralChar c then some ⟨s.tokens, .numeral (c :: chars)⟩
    else (Numeral.ofChars? chars.reverse).bind fun n => begin (.num n :: s.tokens) c
  | .string pieces =>
    if c = '"' then
      some ⟨.str ((joinPieces pieces.reverse).map String.ofList) :: s.tokens, .between⟩
    else if c = '\\' then some ⟨s.tokens, .escape pieces⟩
    else if c.toNat < 32 then none
    else some ⟨s.tokens, .string (.char c :: pieces)⟩
  | .escape pieces =>
    if c = 'u' then some ⟨s.tokens, .hex pieces 0 0⟩
    else (simpleEscape? c).map fun d => ⟨s.tokens, .string (.char d :: pieces)⟩
  | .hex pieces count value =>
    (Decimal.hexValue? c).map fun d =>
      if count = 3 then ⟨s.tokens, .string (.unit (16 * value + d) :: pieces)⟩
      else ⟨s.tokens, .hex pieces (count + 1) (16 * value + d)⟩

/-- Takes the next character, or a byte that belongs to none, which can only stand in a string. -/
def stepOrStray (s : Scanner) : Option Char → Option Scanner
  | some c => s.step c
  | none =>
    match s.pending with
    | .string pieces => some ⟨s.tokens, .string (.stray :: pieces)⟩
    | _ => none

/-- Ends the text. -/
def finish (s : Scanner) : Option (List Token) :=
  match s.pending with
  | .between => some s.tokens.reverse
  | .word letters => (wordToken? letters.reverse).map fun t => (t :: s.tokens).reverse
  | .numeral chars => (Numeral.ofChars? chars.reverse).map fun n => (.num n :: s.tokens).reverse
  | _ => none

end Scanner

/-- The tokens of a text. -/
def tokens? (text : List Char) : Option (List Token) :=
  (text.foldlM Scanner.step Scanner.start).bind Scanner.finish

/-- The tokens of a text in which bytes that belong to no character stand as `none`. -/
def tokensWithStrays? (text : List (Option Char)) : Option (List Token) :=
  (text.foldlM Scanner.stepOrStray Scanner.start).bind Scanner.finish

end DurableState.Json
