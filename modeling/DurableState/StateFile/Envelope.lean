import DurableState.Manifest
import DurableState.Time.Instant

/-!
# DurableState.StateFile.Envelope — the content of a state file

The payload stands in an envelope with its generation, the reason why it was written and the time.
-/

namespace DurableState

/-- A payload with the circumstances under which it was written. -/
structure Envelope (α : Type) where
  generation : Generation
  reason : String
  writtenAt : Instant
  payload : α
deriving Repr

namespace Envelope

variable {α : Type} [Document α]

instance : Document (Envelope α) where
  toJson e := .obj [
    ("generation", .nat e.generation), ("reason", .str e.reason),
    ("written_at", Document.toJson e.writtenAt), ("payload", Document.toJson e.payload)]
  decode room t := do
    let f ← Decoder.fields ["generation", "reason", "written_at", "payload"] room t
    return {
      generation := ← f.required "generation" (Decoder.natBelow Generation.bound)
      reason := ← f.required "reason" Decoder.string
      writtenAt := ← f.required "written_at" Document.decode
      payload := ← f.required "payload" Document.decode }
  check := .record "StateEnvelope" [
    .required "generation" .word64,
    .required "reason" .string,
    .required "written_at" (Document.check Instant),
    .required "payload" (Document.check α)]

end Envelope

end DurableState
