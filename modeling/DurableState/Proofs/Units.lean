import DurableState.Transaction

/-!
# DurableState.Proofs.Units — what generations are kept of

A store keeps generations of the global part and of every index: its *slots*. What a cycle writes to
a slot is a *part* of the new state, and a cleanup removes generations of one slot. Slots stand on
*shelves*, which is where generations are counted: indices with one unique id share a shelf.

Giving up a write goes back to the generation of the slot that the manifest before names
(`Manifest.fallback?`). A cleanup spares a manifest if it keeps just that one (`Cleanup.Spares`).
-/

namespace DurableState

/-! ## Shelves and slots -/

/-- Where generations of one kind are counted. -/
inductive Shelf where
  | manifests
  | globals
  | index (uuid : String)
deriving DecidableEq

/-- What is kept on a shelf. -/
def Shelf.Payload : Shelf → Type
  | .manifests => Manifest
  | .globals => GlobalState
  | .index _ => IndexMetadata

instance : (k : Shelf) → Document k.Payload
  | .manifests => inferInstanceAs (Document Manifest)
  | .globals => inferInstanceAs (Document GlobalState)
  | .index _ => inferInstanceAs (Document IndexMetadata)

/-- What a store keeps generations of, manifests apart: the global part, or an index. -/
inductive Slot where
  | global
  | index (id : IndexId)
deriving DecidableEq

namespace Slot

/-- Where the generations of a slot are counted. -/
def shelf : Slot → Shelf
  | .global => .globals
  | .index id => .index id.uuid

/-- The unit that failures of a slot are reported for. -/
def unit : Slot → StateUnit
  | .global => .global
  | .index id => .index id

/-- Removes every generation of the slot but one. -/
def cleanup (keep : Generation) : Slot → Cleanup
  | .global => .global keep
  | .index id => .index id keep

theorem shelf_ne_manifests (u : Slot) : u.shelf ≠ .manifests := by
  cases u <;> exact Shelf.noConfusion

theorem unit_ne_manifest (u : Slot) : u.unit ≠ .manifest := by
  cases u <;> exact StateUnit.noConfusion

end Slot

namespace Cleanup

/-- The slot that is cleaned up. -/
def slot : Cleanup → Slot
  | .global _ => .global
  | .index id _ => .index id

/-- The shelf that is cleaned up. -/
def shelf (c : Cleanup) : Shelf := c.slot.shelf

/-- The generation that stays. -/
def keep : Cleanup → Generation
  | .global keep | .index _ keep => keep

/-- A cleanup is told by the slot that it empties and the generation that it keeps. -/
theorem eq_cleanup_iff {c : Cleanup} {u : Slot} {g : Generation} :
    c = u.cleanup g ↔ c.slot = u ∧ c.keep = g := by
  constructor
  · rintro rfl
    cases u <;> exact ⟨rfl, rfl⟩
  · rintro ⟨rfl, rfl⟩
    cases c <;> rfl

end Cleanup

/-! ## Falling back -/

/-- The generation of a slot that giving up a write goes back to. The global part always has one,
which may be missing. -/
def Manifest.fallback? (m : Manifest) : Slot → Option Generation
  | .global => some m.globalGeneration
  | .index id => m.indexGeneration? id

/-- Whether a cleanup keeps the generation that the manifest names. -/
def Cleanup.Spares (m : Manifest) (c : Cleanup) : Prop := m.fallback? c.slot = some c.keep

/-! ## Parts -/

/-- What a cycle writes besides the manifest: the global part of some metadata, or the entry of an
index. -/
inductive StatePart where
  | global (m : Metadata)
  | index (e : IndexMetadata)

namespace StatePart

/-- The slot that a part is written to. -/
def slot : StatePart → Slot
  | .global _ => .global
  | .index e => .index e.index

/-- Where a part is kept. -/
def shelf (part : StatePart) : Shelf := part.slot.shelf

/-- What is kept of a part. -/
def payload : (part : StatePart) → part.shelf.Payload
  | .global m => m.globalState
  | .index e => e

/-- Writes a part. -/
def write {σ : Type} [Store σ] (s : σ) (reason : String) : StatePart → Attempt σ Generation
  | .global m => Store.writeGlobal s reason m
  | .index e => Store.writeIndex s reason e

/-- How many indices a part is. -/
def indexCount : StatePart → Nat
  | .global _ => 0
  | .index _ => 1

/-- Removes what a new generation of the part supersedes. -/
def superseded (g : Generation) (part : StatePart) : Cleanup := part.slot.cleanup g

/-- Removes what was written of the part, back to the manifest before. -/
def undo (previous : Manifest) : StatePart → List Cleanup
  | .global _ => [.global previous.globalGeneration]
  | .index e => Transaction.indexRollback previous e.index

/-- What a new generation supersedes is in its own slot. -/
theorem slot_superseded (part : StatePart) (g : Generation) :
    (part.superseded g).slot = part.slot := (Cleanup.eq_cleanup_iff.1 rfl).1

theorem keep_superseded (part : StatePart) (g : Generation) : (part.superseded g).keep = g :=
  (Cleanup.eq_cleanup_iff.1 rfl).2

/-- It keeps what a manifest names if the manifest has the new generation. -/
theorem spares_superseded_iff {part : StatePart} {g : Generation} {m : Manifest} :
    (part.superseded g).Spares m ↔ m.fallback? part.slot = some g := by
  unfold Cleanup.Spares
  rw [slot_superseded, keep_superseded]

/-- To undo a part is to go back to the generation that the manifest falls back to. An index that
the manifest does not name has none, and then nothing is queued. -/
theorem undo_eq (part : StatePart) (m : Manifest) :
    part.undo m = ((m.fallback? part.slot).map part.superseded).toList := by
  cases part with
  | global md => rfl
  | index e =>
    show Transaction.indexRollback m e.index = ((m.indexGeneration? e.index).map _).toList
    -- An index is undone only if the manifest before names it; the global part always is.
    unfold Transaction.indexRollback
    cases m.indexGeneration? e.index <;> rfl

/-- What is queued to undo a part cleans up its slot, and keeps what the manifest falls back to. -/
theorem mem_undo_iff {part : StatePart} {m : Manifest} {c : Cleanup} :
    c ∈ part.undo m ↔ c.slot = part.slot ∧ c.Spares m := by
  rw [undo_eq, Option.mem_toList, Option.map_eq_some_iff]
  unfold Cleanup.Spares
  constructor
  · rintro ⟨g, hg, rfl⟩
    rw [slot_superseded, keep_superseded]
    exact ⟨rfl, hg⟩
  · -- The manifest has one generation for the slot, so the cleanup is the one that is queued.
    rintro ⟨hslot, hspares⟩
    rw [hslot] at hspares
    exact ⟨c.keep, hspares, (Cleanup.eq_cleanup_iff.2 ⟨hslot, rfl⟩).symm⟩

/-- If there is a generation to fall back to, the cleanup that keeps it is queued. -/
theorem superseded_mem_undo {part : StatePart} {m : Manifest} {g : Generation}
    (h : m.fallback? part.slot = some g) : part.superseded g ∈ part.undo m :=
  mem_undo_iff.2 ⟨part.slot_superseded g, spares_superseded_iff.2 h⟩

/-- What a cycle undoes keeps what the manifest before names. -/
theorem spares_undo (part : StatePart) (previous : Manifest) :
    ∀ c ∈ part.undo previous, c.Spares previous := fun _ hc => (mem_undo_iff.1 hc).2

theorem spares_flatMap_undo (ws : List (StatePart × Generation)) (previous : Manifest) :
    ∀ c ∈ ws.flatMap fun w => w.1.undo previous, c.Spares previous := by
  intro c hc
  obtain ⟨x, _, hc⟩ := List.mem_flatMap.1 hc
  exact x.1.spares_undo previous c hc

end StatePart

/-- Parts that were written one after the other, with the generations that they got. -/
inductive Wrote {σ : Type} [Store σ] : σ → List (StatePart × Generation) → σ → Prop
  | nil (s : σ) : Wrote s [] s
  | cons {s s₁ s₂ : σ} {part : StatePart} {reason : String} {g : Generation}
      {ws : List (StatePart × Generation)} (first : part.write s reason = (.ok g, s₁))
      (rest : Wrote s₁ ws s₂) : Wrote s ((part, g) :: ws) s₂

/-- One row of writes after the other is a row of writes. -/
theorem Wrote.append {σ : Type} [Store σ] {s s₁ s₂ : σ} {ws vs : List (StatePart × Generation)}
    (h : Wrote s ws s₁) (h' : Wrote s₁ vs s₂) : Wrote s (ws ++ vs) s₂ := by
  induction h with
  | nil s => exact h'
  | cons first _ ih => exact .cons first (ih h')

end DurableState
