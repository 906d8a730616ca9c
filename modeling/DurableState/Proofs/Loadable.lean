import DurableState.Proofs.DataNode

/-!
# DurableState.Proofs.Loadable — when the store of a data node can be loaded

A data node goes on after a dirty failure of a manifest, and later rollbacks spare what its own
manifest names, not what the one in the store names. So the store can lose a generation that its
manifest names.

* `loadable_run_iff` — the store can be loaded exactly as long as no cleanup since its manifest was
  stored kept another generation than this manifest names; what the writer last committed is held
  whatever failed, so a store that is in step with its writer can always be loaded;
* `unloadable_run` — a run after which the store cannot be loaded.
-/

namespace DurableState

/-! ## What writes leave -/

namespace MemoryStore

variable {s s' : MemoryStore} {u : Slot} {g : Generation}

/-- What is held was handed out before. -/
theorem WellFormed.lt_slotNext (hs : s.WellFormed) (h : s.held u g = true) : g < s.slotNext u := by
  obtain ⟨x, hx⟩ := held_iff.1 h
  exact (hs.lt_next u g x hx).2

/-- Writes neither remove a generation that was handed out before nor bring it back. -/
theorem Extends.held_eq (h : Extends s s') (hg : g < s.slotNext u) :
    s'.held u g = s.held u g := by
  rw [Bool.eq_iff_iff, held_iff, held_iff]
  constructor
  · -- What was written since has a generation that was not handed out yet.
    rintro ⟨x, hx⟩
    rcases h.origin u g x hx with hold | hfresh
    · exact ⟨x, hold⟩
    · exact absurd hg (Nat.not_lt.2 hfresh)
  · rintro ⟨x, hx⟩
    exact ⟨x, h.held u g x hx⟩

end MemoryStore

/-! ## What cleanups remove -/

/-- The slot that a call cleaned up, and the generation that it kept. -/
def StoreCall.kept? : StoreCall → Option (Slot × Generation)
  | .cleanupGlobal keep => some (.global, keep)
  | .cleanupIndex id keep => some (.index id, keep)
  | _ => none

theorem Cleanup.kept?_call (c : Cleanup) : c.call.kept? = some (c.slot, c.keep) := by
  cases c <;> rfl

/-- Cleanups leave a generation if and only if each of them that is for its slot keeps it. -/
theorem Cleanup.held_foldl_run {cs : List Cleanup} {s : MemoryStore} {u : Slot} {g : Generation} :
    (cs.foldl run s).held u g = true ↔
      s.held u g = true ∧ ∀ c ∈ cs, c.slot = u → c.keep = g := by
  simp only [MemoryStore.held_iff, slotAt?_foldl_run_eq_some_iff, exists_and_right]

/-! ## The calls since a manifest was stored -/

/-- The calls since the last one that stored a manifest, newest first. -/
def StoreCall.sinceManifest (calls : List StoreCall) : List StoreCall :=
  calls.reverse.takeWhile fun c => !c.storesManifest

/-- The call kept another generation of a unit than the manifest names. -/
def StoreCall.Discards (m : Manifest) (c : StoreCall) : Prop :=
  ∃ u k g, c.kept? = some (u, k) ∧ m.generation? u = some g ∧ k ≠ g

/-- With a manifest that is stored the calls are counted anew. -/
theorem StoreCall.sinceManifest_append_of_stores (calls : List StoreCall) {c : StoreCall}
    (hc : c.storesManifest = true) : sinceManifest (calls ++ [c]) = [] := by
  unfold sinceManifest
  simp [hc]

/-- Other calls are added to those since the manifest. -/
theorem StoreCall.mem_sinceManifest_append {calls cs : List StoreCall}
    (hcs : ∀ c ∈ cs, c.storesManifest = false) {c : StoreCall} :
    c ∈ sinceManifest (calls ++ cs) ↔ c ∈ cs ∨ c ∈ sinceManifest calls := by
  unfold sinceManifest
  have hall : ∀ c ∈ cs.reverse, (!c.storesManifest) = true := by
    intro c hc
    rw [hcs c (List.mem_reverse.1 hc)]
    rfl
  rw [List.reverse_append, List.takeWhile_append_of_pos hall, List.mem_append, List.mem_reverse]

namespace MemoryStore

/-- What the manifest in the store names was handed out before, and is held if and only if no
cleanup since removed it. -/
structure Traced (s : MemoryStore) : Prop where
  issued : ∀ u g, s.current.generation? u = some g → g < s.slotNext u
  held_iff : ∀ u g, s.current.generation? u = some g →
    (s.held u g = true ↔
      ∀ c ∈ StoreCall.sinceManifest s.calls, ∀ k, c.kept? = some (u, k) → k = g)

namespace Traced

variable {s s' : MemoryStore}

theorem empty : MemoryStore.empty.Traced where
  issued u g hg := by cases u <;> cases hg
  held_iff u g hg := by cases u <;> cases hg

theorem arm (h : s.Traced) (a : Arming) : (s.arm a).Traced := by
  cases a <;> exact ⟨h.issued, h.held_iff⟩

/-- Quiet calls remove nothing and bring nothing back. -/
theorem grown (h : s.Traced) (hgrown : Extends s s') : s'.Traced where
  issued u g hg := by
    rw [hgrown.current_eq] at hg
    exact Nat.lt_of_lt_of_le (h.issued u g hg) (hgrown.next_le u)
  held_iff u g hg := by
    rw [hgrown.current_eq] at hg
    obtain ⟨cs, hcalls, hquiet⟩ := hgrown.calls
    have hstores : ∀ c ∈ cs, c.storesManifest = false := by
      intro c hc
      have hc := hquiet c hc
      unfold StoreCall.isQuiet at hc
      simp only [Bool.and_eq_true, Bool.not_eq_eq_eq_not, Bool.not_true] at hc
      exact hc.1
    have hnone : ∀ c ∈ cs, c.kept? = none := by
      intro c hc
      have hc := hquiet c hc
      cases c <;> first | rfl | cases hc
    -- The generation was handed out before, so it is held exactly if it was.
    rw [hgrown.held_eq (h.issued u g hg), h.held_iff u g hg, hcalls]
    constructor
    · intro hall c hc k hk
      rcases (StoreCall.mem_sinceManifest_append hstores).1 hc with hc | hc
      · rw [hnone c hc] at hk
        cases hk
      · exact hall c hc k hk
    · intro hall c hc k hk
      exact hall c ((StoreCall.mem_sinceManifest_append hstores).2 (.inr hc)) k hk

/-- A cleanup removes what it is recorded to have removed, and nothing else. -/
theorem cleanup (h : s.Traced) (cs : List Cleanup) : (cs.foldl Cleanup.run s).Traced := by
  obtain ⟨_, _, hnext, _, hcalls⟩ := Cleanup.foldl_run_frame cs s
  have hcurrent := Cleanup.current_foldl_run cs s
  have hstores : ∀ c ∈ cs.map Cleanup.call, c.storesManifest = false := by
    intro c hc
    obtain ⟨c, _, rfl⟩ := List.mem_map.1 hc
    cases c <;> rfl
  refine ⟨?_, ?_⟩
  · intro u g hg
    rw [hcurrent] at hg
    rw [hnext]
    exact h.issued u g hg
  · intro u g hg
    rw [hcurrent] at hg
    rw [Cleanup.held_foldl_run, h.held_iff u g hg, hcalls]
    constructor
    · -- A cleanup is one of these or an earlier one.
      rintro ⟨hold, hnew⟩ c hc k hk
      rcases (StoreCall.mem_sinceManifest_append hstores).1 hc with hc | hc
      · obtain ⟨cleanup, hcleanup, rfl⟩ := List.mem_map.1 hc
        rw [cleanup.kept?_call] at hk
        obtain ⟨hslot, rfl⟩ := Prod.mk.inj (Option.some.inj hk)
        exact hnew cleanup hcleanup hslot
      · exact hold c hc k hk
    · intro hall
      refine ⟨?_, ?_⟩
      · intro c hc k hk
        exact hall c ((StoreCall.mem_sinceManifest_append hstores).2 (.inr hc)) k hk
      · -- Each of these cleanups is recorded.
        rintro c hc rfl
        exact hall c.call ((StoreCall.mem_sinceManifest_append hstores).2
          (.inl (List.mem_map_of_mem hc))) c.keep c.kept?_call

/-- With a manifest that is all held the trace begins anew. -/
theorem withManifest (hs : s.WellFormed) {m : Manifest} (hm : s.Holds m) {c : StoreCall}
    (hc : c.storesManifest = true) : (s.withManifest m c).Traced := by
  have hheld := MemoryStore.holds_iff.1 hm
  refine ⟨fun u g hg => ?_, fun u g hg => ?_⟩
  · exact hs.lt_slotNext (hheld u g hg)
  · have hnone : StoreCall.sinceManifest (s.withManifest m c).calls = [] :=
      StoreCall.sinceManifest_append_of_stores s.calls hc
    have hg' : (s.withManifest m c).held u g = true := hheld u g hg
    simp [hnone, hg']

/-- A traced store can be loaded if and only if no cleanup discarded what its manifest names. -/
theorem load_isOk_iff (h : s.Traced) :
    (∃ r, s.load = .ok r) ↔
      ∀ c ∈ StoreCall.sinceManifest s.calls, ¬ c.Discards s.current := by
  -- A store can be loaded if it holds all that its manifest names.
  rw [load_eq_loadFrom, loadFrom_isOk_iff, holds_iff]
  constructor
  · rintro hheld c hc ⟨u, k, g, hk, hg, hne⟩
    exact hne ((h.held_iff u g hg).1 (hheld u g hg) c hc k hk)
  · intro hnone u g hg
    rw [h.held_iff u g hg]
    intro c hc k hk
    by_contra hne
    exact hnone c hc ⟨u, k, g, hk, hg, hne⟩

end Traced

end MemoryStore

/-! ## Writers and runs -/

/-- A sound writer on a traced store. -/
structure Writer.Traced (w : Writer MemoryStore) : Prop where
  sound : w.Sound
  store : w.store.Traced

namespace Writer.Traced

variable {w w' : Writer MemoryStore}

theorem termSet (h : w.Traced) {term : UInt64} {r : Except (Failure WriteError) Unit}
    (hr : w.TermSet term r w') : w'.Traced := by
  refine ⟨h.sound.termSet hr, ?_⟩
  have hheld := h.sound.holds.withTerm term
  cases hr with
  | refused grown => exact h.store.grown grown
  | torn _ hs' =>
    subst hs'
    exact .withManifest h.sound.wellFormed hheld rfl
  | committed hs' =>
    subst hs'
    exact .withManifest h.sound.wellFormed hheld rfl

/-- However an update ends, its store is traced. -/
theorem updated (h : w.Traced) {new previous : ClusterState}
    {r : Except (Failure Error) WriteStats} (hr : w.Updated new previous r w') : w'.Traced := by
  refine ⟨h.sound.updated hr, ?_⟩
  -- A manifest that is stored, known to the writer or not, starts the trace anew; else calls are
  -- added to it.
  cases hr with
  | unplanned _ => exact h.store
  | givenUp _ grown _ => exact (h.store.grown grown).cleanup _
  | idle staged => exact h.store.grown staged.grown
  | torn _ ready =>
    exact .withManifest ready.staged.grown.wellFormed (ready.staged.holds h.sound.holds) rfl
  | committed ready =>
    apply MemoryStore.Traced.cleanup
    exact .withManifest ready.staged.grown.wellFormed (ready.staged.holds h.sound.holds) rfl

end Writer.Traced

namespace DataNode

/-- Every run of a data node leaves a traced store. -/
theorem traced_run (settings : WriterSettings) {events : List Event}
    (hkeyed : ∀ s ∈ events.flatMap Event.states, s.metadata.Keyed) :
    (run settings events).writer.Traced := by
  apply run_induction (P := fun d => d.writer.Traced)
  · exact ⟨⟨MemoryStore.wellFormed_empty, MemoryStore.holds_empty _⟩, .empty⟩
  · intro d event hevent hd
    cases event with
    | arm a => exact ⟨hd.sound.arm a, hd.store.arm a⟩
    | apply new previous =>
      have hnew := hkeyed new (List.mem_flatMap.2 ⟨_, hevent, List.mem_cons_self⟩)
      exact apply_preserves hnew (fun _ h => h.sound) (fun h term => h.termSet term)
        (fun h update => h.updated update) (fun _ h => ⟨h.sound.setIncremental _, h.store⟩) hd

/-- **When the store of a data node can be loaded.** In every run, whatever fails in it, the store
can be loaded if and only if no cleanup since its manifest was stored discarded a generation that
this manifest names. What the writer last committed is held in any case, so the store can be loaded
as long as both manifests name the same generations. -/
theorem loadable_run_iff (settings : WriterSettings) (events : List Event)
    (hkeyed : ∀ s ∈ events.flatMap Event.states, s.metadata.Keyed)
    {d : DataNode MemoryStore} (hrun : run settings events = d) :
    ((∃ r, d.writer.store.load = .ok r) ↔
        ∀ c ∈ StoreCall.sinceManifest d.writer.store.calls, ¬ c.Discards d.writer.store.current) ∧
      d.writer.store.Holds d.writer.state.manifest ∧
      ((∀ u, d.writer.store.current.generation? u = d.writer.state.manifest.generation? u) →
        ∃ r, d.writer.store.load = .ok r) := by
  subst hrun
  have htraced := traced_run settings hkeyed
  refine ⟨htraced.store.load_isOk_iff, htraced.sound.holds, ?_⟩
  -- What the manifest in the store names is what the writer's names, and that is held.
  intro hsame
  rw [MemoryStore.load_eq_loadFrom, MemoryStore.loadFrom_isOk_iff, MemoryStore.holds_iff]
  intro u g hg
  rw [hsame] at hg
  exact MemoryStore.holds_iff.1 htraced.sound.holds u g hg

/-- The manifest of the second state fails dirty, so that it is in the store and the writer has the
one before. -/
def tornRun : List Event :=
  [.apply (.versioned false 1) .empty, .arm (.manifest .dirty),
    .apply (.versioned false 2) (.versioned false 1)]

theorem loadable_tornRun :
    (∀ s ∈ tornRun.flatMap Event.states, s.metadata.Keyed) ∧
      ∃ r, (run default tornRun).writer.store.load = .ok r := by
  have hkeyed : ∀ s ∈ tornRun.flatMap Event.states, s.metadata.Keyed := by decide +kernel
  have hsince : StoreCall.sinceManifest (run default tornRun).writer.store.calls = [] := by
    decide +kernel
  refine ⟨hkeyed, (loadable_run_iff default tornRun hkeyed rfl).1.2 ?_⟩
  intro c hc
  rw [hsince] at hc
  cases hc

/-- After that the index of the third state fails clean. The rollback keeps the first generation of
the index, and the manifest in the store names the second. -/
def lostRollback : List Event :=
  tornRun ++ [.arm (.index "logs" .clean), .apply (.versioned false 3) (.versioned false 2)]

theorem unloadable_run :
    (∀ s ∈ lostRollback.flatMap Event.states, s.metadata.Keyed) ∧
      (run default lostRollback).writer.store.load.map Prod.fst =
        .error (.missing (.index ⟨"logs", "u1"⟩ 2)) := by
  refine ⟨?_, ?_⟩ <;> decide +kernel

end DataNode

end DurableState
