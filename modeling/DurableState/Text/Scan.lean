import DurableState.Text.Position

/-!
# DurableState.Text.Scan — reading a text from the front

A scanner takes something off the front of a text or stops. Behind a stop another scanner may be
tried in its place (`<|>`), unless the stop is final. A stop tells where it is, so that the reader
of a whole text can say where the text is wrong.
-/

namespace DurableState

/-- Where a scanner stopped without success. -/
structure Stop where
  /-- The text that is left there. -/
  rest : List Char
  /-- Whether nothing else may be tried. -/
  isFinal : Bool
deriving Repr

/-- Reads a value off the front of a text. -/
def Scan (α : Type) := List Char → Except Stop (α × List Char)

namespace Scan

variable {α : Type}

instance : Monad Scan := inferInstanceAs (Monad (StateT (List Char) (Except Stop)))

/-- Tries a second scanner where a first one stopped, and from where the first one began. -/
def orElse (s : Scan α) (t : Unit → Scan α) : Scan α := fun cs =>
  match s cs with
  | .ok taken => .ok taken
  | .error stop => if stop.isFinal then .error stop else t () cs

instance : OrElse (Scan α) := ⟨orElse⟩

/-! ## Stops -/

/-- Stops at a given place. -/
def stopAt (rest : List Char) : Scan α := fun _ => .error ⟨rest, false⟩

/-- Stops where it is tried. -/
def stop : Scan α := fun cs => stopAt cs cs

/-- Makes every stop of a scanner final. -/
def committed (s : Scan α) : Scan α := fun cs =>
  (s cs).mapError fun stop => { stop with isFinal := true }

/-- The text that is left. Takes nothing. -/
def here : Scan (List Char) := fun cs => .ok (cs, cs)

/-- A value together with the place where it starts. -/
def located (s : Scan α) : Scan (Located α) := do
  let start ← here
  return ⟨start.length, ← s⟩

/-! ## Characters -/

/-- One character that meets a condition. -/
def satisfy (p : Char → Bool) : Scan Char
  | c :: cs => if p c then .ok (c, cs) else stop (c :: cs)
  | [] => stop []

/-- A given character. -/
def char (c : Char) : Scan Unit := do let _ ← satisfy (· == c)

/-- A given text. A stop takes no part of it. -/
def text (t : List Char) : Scan Unit := fun cs =>
  if t.isPrefixOf cs then .ok ((), cs.drop t.length) else stop cs

/-- All characters in front that meet a condition. -/
def span (p : Char → Bool) : Scan (List Char) := fun cs => .ok (cs.takeWhile p, cs.dropWhile p)

/-- At least one character that meets a condition, and all that follow it. -/
def span1 (p : Char → Bool) : Scan (List Char) := fun cs =>
  let taken := cs.takeWhile p
  if taken.isEmpty then stop cs else .ok (taken, cs.dropWhile p)

/-- The end of the text. -/
def finish : Scan Unit
  | [] => .ok ((), [])
  | cs => stop cs

/-! ## Choice and repetition -/

/-- A value, or none where the scanner stops. -/
def maybe (s : Scan α) : Scan (Option α) := (do return some (← s)) <|> return none

/-- The values that a scanner takes one after the other, at most `n`. Beside them stands the text
behind them, or a stop that is final. -/
def upTo (s : Scan α) : Nat → List Char → List α × Except Stop (List Char)
  | 0, cs => ([], .ok cs)
  | n + 1, cs =>
    match s cs with
    | .error stop => ([], if stop.isFinal then .error stop else .ok cs)
    | .ok (a, rest) =>
      let (as, outcome) := upTo s n rest
      (a :: as, outcome)

/-- As often as a scanner succeeds. It has to take at least one character each time, so the length
of the text bounds the count. -/
def repeated (s : Scan α) : Scan (List α) := fun cs =>
  let (as, outcome) := upTo s cs.length cs
  outcome.map fun rest => (as, rest)

/-- Values with a separator between each two; there may be none. A separator with no value behind it
is left alone. -/
def separated (s : Scan α) (separator : Scan Unit) : Scan (List α) := do
  match ← maybe s with
  | none => return []
  | some a => return a :: (← repeated (do separator; s))

end Scan

end DurableState
