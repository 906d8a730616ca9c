/-!
# DurableState.Text.Utf8 — bytes that are nearly text

Reads bytes as UTF-8 and marks those that belong to no character, for readers that can go on behind
them.
-/

namespace DurableState.Utf8

/-- Whether a byte continues a character. -/
def isContinuation (b : UInt8) : Bool := 0x80 ≤ b && b < 0xc0

/-- What the first byte of a character says: how many bytes follow, the high bits of the character's
number, and the smallest number that needs as many bytes. -/
def lead? (b : UInt8) : Option (Nat × Nat × Nat) :=
  if b < 0x80 then some (0, b.toNat, 0)
  else if 0xc0 ≤ b && b < 0xe0 then some (1, b.toNat - 0xc0, 0x80)
  else if 0xe0 ≤ b && b < 0xf0 then some (2, b.toNat - 0xe0, 0x800)
  else if 0xf0 ≤ b && b < 0xf8 then some (3, b.toNat - 0xf0, 0x10000)
  else none

/-- The character that starts with a byte, and how many of the next bytes belong to it. -/
def char? (b : UInt8) (rest : List UInt8) : Option (Char × Nat) := do
  let (count, high, least) ← lead? b
  let more := rest.take count
  guard (more.length = count && more.all isContinuation)
  let n := more.foldl (fun n b => 64 * n + (b.toNat - 0x80)) high
  if least ≤ n ∧ n.isValidChar then some (Char.ofNat n, count) else none

/-- How many bytes of a character that breaks off stand together: its first byte and those that
could follow it. A second byte is held to what keeps the number in range, a third one only has to
continue. -/
def brokenSize (b : UInt8) (rest : List UInt8) : Nat :=
  let low : UInt8 := if b = 0xe0 then 0xa0 else if b = 0xf0 then 0x90 else 0x80
  let high : UInt8 := if b = 0xed then 0x9f else if b = 0xf4 then 0x8f else 0xbf
  match rest with
  | [] => 1
  | second :: rest =>
    if b < 0xe0 || 0xf4 < b || second < low || high < second then 1
    else if 0xf0 ≤ b && rest.head?.any isContinuation then 3
    else 2

/-- Reads bytes, behind those of the last character that `skip` counts. A character that breaks off,
and a byte that starts none, is read as `none`. -/
def decodeFrom : (skip : Nat) → List UInt8 → List (Option Char)
  | _, [] => []
  | skip + 1, _ :: rest => decodeFrom skip rest
  | 0, b :: rest =>
    match char? b rest with
    | some (c, count) => some c :: decodeFrom count rest
    | none => none :: decodeFrom (brokenSize b rest - 1) rest

/-- Reads bytes. -/
def decode (bytes : List UInt8) : List (Option Char) := decodeFrom 0 bytes

/-- How many bytes in front are text. -/
def textSize (bytes : List UInt8) : Nat :=
  ((decode bytes).takeWhile Option.isSome).foldr (fun c n => (c.elim 0 Char.utf8Size) + n) 0

end DurableState.Utf8
