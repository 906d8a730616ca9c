import DurableState.Digest.Sha256
import DurableState.Failure

/-!
# DurableState.StateFile.Frame — the bytes around the content of a state file

```text
magic    4 bytes   MSST
version  4 bytes   1, least significant byte first
length   8 bytes   of the content, least significant byte first
content
checksum 32 bytes  SHA-256 of the content
```
-/

namespace DurableState.Frame

/-- The first bytes of every state file. -/
def magic : List UInt8 := [0x4d, 0x53, 0x53, 0x54]

/-- The version of the layout. -/
def version : Nat := 1

/-- How many bytes stand before the content. -/
def headerSize : Nat := 16

/-- How many bytes stand behind the content. -/
def checksumSize : Nat := 32

/-- A number in a fixed count of bytes, the least significant first. -/
def littleEndian : Nat → Nat → List UInt8
  | 0, _ => []
  | count + 1, n => UInt8.ofNat (n % 256) :: littleEndian count (n / 256)

/-- The number that bytes denote, the least significant first. -/
def ofLittleEndian : List UInt8 → Nat
  | [] => 0
  | b :: rest => b.toNat + 256 * ofLittleEndian rest

/-- The bytes of a state file with some content. -/
def enclose (content : List UInt8) : List UInt8 :=
  magic ++ littleEndian 4 version ++ littleEndian 8 content.length ++ content ++
    Sha256.digest content

/-- How bytes are taken out of a file, and how a reader calculates with lengths. -/
structure Access (m : Type → Type) where
  slice : List UInt8 → Nat → Nat → m (List UInt8)
  sum : Nat → Nat → m Nat
  difference : Nat → Nat → m Nat
  /-- A sum that is only asked for, not relied on. -/
  sum? : Nat → Nat → Option Nat

/-- The content of a state file. The parts of the frame are checked in their order, after the size
of the whole. -/
def contentBy {m : Type → Type} [Monad m] (a : Access m) (bytes : List UInt8) :
    m (Except Corruption (List UInt8)) :=
  let size := bytes.length
  if size < headerSize + checksumSize then pure (.error (.tooShort size))
  else do
    if (← a.slice bytes 0 4) ≠ magic then pure (.error .invalidMagic)
    else
      let found := ofLittleEndian (← a.slice bytes 4 8)
      if found ≠ version then pure (.error (.unsupportedVersion found))
      else
        let length := ofLittleEndian (← a.slice bytes 8 headerSize)
        if a.sum? length (headerSize + checksumSize) ≠ some size then
          pure (.error (.lengthMismatch length (← a.difference size (headerSize + checksumSize))))
        else
          let stop ← a.sum headerSize length
          let content ← a.slice bytes headerSize stop
          if Sha256.digest content ≠ (← a.slice bytes stop size) then
            pure (.error .checksumMismatch)
          else pure (.ok content)

/-- Bytes and lengths without a limit: a slice ends where the bytes end. -/
def Access.plain : Access Id where
  slice bytes start stop := (bytes.drop start).take (stop - start)
  sum a b := a + b
  difference a b := a - b
  sum? a b := some (a + b)

/-- The content of a state file. -/
def contentOf (bytes : List UInt8) : Except Corruption (List UInt8) := contentBy .plain bytes

end DurableState.Frame
