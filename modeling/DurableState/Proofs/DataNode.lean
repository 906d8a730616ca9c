import DurableState.DataNode
import DurableState.Proofs.Writer

/-!
# DurableState.Proofs.DataNode — calls and runs of a data node

A data node goes on after every failure, with the store and the writer that the failure left. So its
runs are just sequences of applied states, with anything happening to the store in between. In a
store in memory failures are armed. There `applied` says what one call can do: to the writer it can
record a term, update it and change its flag, so whatever these keep is kept by every call and by
every run (`apply_preserves`, `run_induction`).
-/

namespace DurableState.DataNode

/-! ## Runs -/

/-- A step of a data node: something happens to its store, or a state is applied, with the one that
is said to have been applied before. -/
inductive Step (σ : Type) where
  | meanwhile (change : σ → σ)
  | apply (new previous : ClusterState)

/-- Takes a step. -/
def step {σ : Type} [Store σ] (d : DataNode σ) : Step σ → DataNode σ
  | .meanwhile change => ⟨{ d.writer with store := change d.writer.store }⟩
  | .apply new previous => (d.apply new previous).2

/-- A step of a data node whose store is in memory, where failures are all that happens to it. -/
inductive Event where
  | arm (a : Arming)
  | apply (new previous : ClusterState)

/-- The states that an event brings. -/
def Event.states : Event → List ClusterState
  | .arm _ => []
  | .apply new _ => [new]

/-- A data node with an empty store. Its writer is the one that opening the store gives. -/
def start (settings : WriterSettings) : DataNode MemoryStore :=
  ⟨.new .empty .empty .empty settings⟩

def Event.toStep : Event → Step MemoryStore
  | .arm a => .meanwhile (·.arm a)
  | .apply new previous => .apply new previous

/-- Lets an event happen. -/
def handle (d : DataNode MemoryStore) (event : Event) : DataNode MemoryStore := d.step event.toStep

/-- A run that begins with an empty store. -/
def run (settings : WriterSettings) (events : List Event) : DataNode MemoryStore :=
  events.foldl handle (start settings)

/-- What holds at the start and is kept by every event holds at the end of a run. -/
theorem run_induction {P : DataNode MemoryStore → Prop} {settings : WriterSettings}
    {events : List Event} (hstart : P (start settings))
    (hstep : ∀ d, ∀ event ∈ events, P d → P (d.handle event)) : P (run settings events) := by
  unfold run
  exact List.foldlRecOn (motive := P) events handle hstart fun d hd event he => hstep d event he hd

/-! ## One call -/

/-- How persisting a state can end: the term is not recorded, or the state is updated after it. -/
inductive Persisted (w : Writer MemoryStore) (new previous : ClusterState) :
    Except (Failure Error) WriteStats → Writer MemoryStore → Prop
  | refused {e : WriteError} {w' : Writer MemoryStore}
      (term : w.TermSet new.term (.error (.error e)) w') :
      Persisted w new previous (.error (.error (.write e))) w'
  | updated {w₁ w' : Writer MemoryStore} {r : Except (Failure Error) WriteStats}
      (term : w₁ = w ∨ w.TermSet new.term (.ok ()) w₁) (update : w₁.Updated new previous r w') :
      Persisted w new previous r w'

theorem persisted {w : Writer MemoryStore} (hw : w.Sound) {new : ClusterState}
    (hnew : new.metadata.Keyed) (previous : ClusterState) :
    Persisted w new previous (persist w new previous).1 (persist w new previous).2 := by
  unfold persist raiseTerm
  -- A term that is not higher is not recorded.
  by_cases hterm : w.state.manifest.currentTerm < new.term
  · rw [if_pos hterm]
    have hset := Writer.termSet hw.wellFormed new.term
    revert hset
    rcases w.setTerm new.term with ⟨r, w₁⟩
    intro hset
    cases r with
    | error f =>
      cases hset with
      | refused grown => exact .refused (.refused grown)
      | torn armed hs' => exact .refused (.torn armed hs')
    | ok _ =>
      exact .updated (.inr hset) (Writer.updated (hw.termSet hset).wellFormed hnew previous)
  · rw [if_neg hterm]
    exact .updated (.inl rfl) (Writer.updated hw.wellFormed hnew previous)

/-- How applying a state can end. It never breaks a contract. -/
inductive Applied (d : DataNode MemoryStore) (new previous : ClusterState) :
    Except Crash ApplyOutcome → DataNode MemoryStore → Prop
  | skipped (h : new.blocks.disableStatePersistence = true) :
      Applied d new previous (.ok .skipped) ⟨d.writer.setIncremental false⟩
  | persisted {stats : WriteStats} {w' : Writer MemoryStore}
      (h : Persisted d.writer new previous (.ok stats) w') :
      Applied d new previous (.ok (.persisted stats)) ⟨w'.setIncremental true⟩
  | failed {e : Error} {w' : Writer MemoryStore}
      (h : Persisted d.writer new previous (.error (.error e)) w') :
      Applied d new previous (.ok (.failed e.isDirty)) ⟨w'⟩

theorem applied {d : DataNode MemoryStore} (hd : d.writer.Sound) {new : ClusterState}
    (hnew : new.metadata.Keyed) (previous : ClusterState) :
    d.Applied new previous (d.apply new previous).1 (d.apply new previous).2 := by
  unfold apply
  -- A state with the block is not persisted at all.
  by_cases hskip : new.blocks.disableStatePersistence = true
  · rw [if_pos hskip]
    exact .skipped hskip
  · rw [if_neg hskip]
    have hpersisted := persisted hd hnew previous
    revert hpersisted
    rcases persist d.writer new previous with ⟨r, w'⟩
    intro hpersisted
    cases r with
    | ok stats => exact .persisted hpersisted
    | error f =>
      cases f with
      | error e => exact .failed hpersisted
      | crash c =>
        -- No update of a store in memory ends in a crash.
        cases hpersisted with
        | updated term update => cases update

/-- What recording a term, updating and changing the flag keep is kept by applying a state. -/
theorem apply_preserves {P : Writer MemoryStore → Prop} {new previous : ClusterState}
    (hnew : new.metadata.Keyed) (hsound : ∀ w, P w → w.Sound)
    (hterm : ∀ {w w' : Writer MemoryStore} {term : UInt64} {r : Except (Failure WriteError) Unit},
      P w → w.TermSet term r w' → P w')
    (hupdate : ∀ {w w' : Writer MemoryStore} {r : Except (Failure Error) WriteStats},
      P w → w.Updated new previous r w' → P w')
    (hflag : ∀ {w : Writer MemoryStore} (incremental : Bool),
      P w → P (w.setIncremental incremental))
    {d : DataNode MemoryStore} (hd : P d.writer) : P (d.apply new previous).2.writer := by
  -- In a persist the term is recorded at most once, and only then the state is updated.
  have hpersist : ∀ {r : Except (Failure Error) WriteStats} {w' : Writer MemoryStore},
      Persisted d.writer new previous r w' → P w' := by
    intro r w' h
    cases h with
    | refused term => exact hterm hd term
    | updated term update =>
      rcases term with rfl | term
      · exact hupdate hd update
      · exact hupdate (hterm hd term) update
  have happlied := applied (hsound _ hd) hnew previous
  revert happlied
  rcases d.apply new previous with ⟨r, d'⟩
  intro happlied
  cases happlied with
  | skipped _ => exact hflag false hd
  | persisted h => exact hflag true (hpersist h)
  | failed h => exact hpersist h

end DurableState.DataNode
