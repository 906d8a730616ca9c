import DurableState.Proofs.DataNode

/-!
# DurableState.Proofs.LostUpdate — when a data node persists what it applied

An index keeps its generation if its version is the one that it has in the state applied before. If
that state itself was not persisted, the generation that is kept is older still, and the update is
lost although the call says that the state is persisted.

* `persisted_upToDate_iff` — every index that is named is stored as the new state has it if and only
  if no generation is kept whose version differs; a run whose calls failed only while everything was
  written anyway has none;
* `persisted_outdated` — a run that loses an update.
-/

namespace DurableState

/-! ## Entries of the new state -/

/-- The index is stored in another version than the new state has, and the state before hides it: it
has the version of the new state. -/
def Stale (stored : Option IndexMetadata) (previous new : ClusterState) (id : IndexId) : Prop :=
  ∃ x b e, stored = some x ∧ previous.metadata.index? id = some b ∧
    new.metadata.index? id = some e ∧ b.version = e.version ∧ x.version ≠ e.version

/-- An index that is named is stored as the new state has it unless it was stale and the cycle
incremental. -/
theorem CyclePlan.Staged.upToDate_iff {states : List ClusterState} {w : WriterState}
    {new previous : ClusterState} {p : CyclePlan} {s s' : MemoryStore}
    {ws : List (StatePart × Generation)} {m : Manifest}
    (h : p.Staged w new previous s ws s' m) (hs : s.Recalls states w.manifest) (hnew : new ∈ states)
    (hconsistent : Consistent states) {id : IndexId} {g : Generation}
    (hg : m.indexGeneration? id = some g) :
    Metadata.SameEntry (s'.entryOf? m id) (new.metadata.index? id) ↔
      (w.incremental = true → ¬ Stale (s.entryOf? w.manifest id) previous new id) := by
  rcases h.entryOf?_cases hs.holds hg with
    ⟨x, b, e, hincremental, hx, hb, he, hversion, hx'⟩ | ⟨e, he, hx', hchanged⟩
  · -- The generation was kept: its entry is the new one exactly if it has its version.
    rw [hx', he]
    constructor
    · rintro hrel _ ⟨x', _, e', hx₁, _, he₁, _, hne⟩
      rw [hx] at hx₁
      rw [he] at he₁
      obtain rfl := Option.some.inj hx₁
      obtain rfl := Option.some.inj he₁
      cases hrel with
      | some hsame => exact hne (IndexMetadata.version_eq_of_same hsame)
    · intro hkept
      have hxe : x.version = e.version := by
        by_contra hne
        exact hkept hincremental ⟨x, b, e, hx, hb, he, hversion, hne⟩
      obtain ⟨c, hc, hce⟩ := hs.carries id x hx
      exact .some (hconsistent c hc new hnew id x e hce he hxe)
  · -- The entry was written: then the state before did not have the version of the new one.
    rw [hx', he]
    constructor
    · rintro _ hincremental ⟨x, b, e', hx, hb, he₁, hversion, _⟩
      rw [he] at he₁
      obtain rfl := Option.some.inj he₁
      exact hchanged x b hincremental hx hb hversion
    · intro _
      exact .some (IndexMetadata.same_refl e)

/-! ## Writers that no manifest failed dirty on -/

namespace Writer

/-- The writer and its store agree on a manifest that can be loaded, and no dirty failure of a
manifest is waiting. -/
structure Settled (states : List ClusterState) (w : Writer MemoryStore) : Prop where
  recalls : w.store.Recalls states w.state.manifest
  inStep : w.InStep
  unarmed : w.store.failManifest ≠ some .dirty

namespace Settled

variable {states : List ClusterState} {w w' : Writer MemoryStore}

theorem sound (h : w.Settled states) : w.Sound := ⟨h.recalls.wellFormed, h.recalls.holds⟩

theorem setIncremental (h : w.Settled states) (incremental : Bool) :
    (w.setIncremental incremental).Settled states := ⟨h.recalls, h.inStep, h.unarmed⟩

/-- A store that keeps what the manifest names can take the place of the writer's. -/
theorem unchanged (h : w.Settled states) {s' : MemoryStore} (hs' : w.Unchanged s')
    (hfail : s'.failManifest ≠ some .dirty) : Settled states { w with store := s' } :=
  ⟨h.recalls.keeps hs'.wellFormed hs'.keeps, hs'.current.trans h.inStep, hfail⟩

theorem arm (h : w.Settled states) {a : Arming} (ha : a ≠ .manifest .dirty) :
    (w.arm a).Settled states := by
  refine h.unchanged ⟨MemoryStore.wellFormed_arm h.sound.wellFormed a, MemoryStore.current_arm a,
    MemoryStore.keeps_arm a _⟩ ?_
  cases a with
  | global kind => exact h.unarmed
  | index name kind => exact h.unarmed
  | manifest kind =>
    intro hdirty
    obtain rfl := Option.some.inj hdirty
    exact ha rfl

theorem failManifest_ne (h : w.Settled states) {s' : MemoryStore}
    (hgrown : w.store.Extends s') : s'.failManifest ≠ some .dirty :=
  fun hdirty => h.unarmed (hgrown.failManifest_of_eq_some hdirty)

theorem termSet (h : w.Settled states) {term : UInt64} {r : Except (Failure WriteError) Unit}
    (hr : w.TermSet term r w') : w'.Settled states := by
  cases hr with
  | refused grown => exact h.unchanged (h.sound.unchanged_grown grown) (h.failManifest_ne grown)
  | torn armed _ => exact absurd armed h.unarmed
  | committed hs' =>
    subst hs'
    refine ⟨(h.recalls.withTerm term).withManifest _ _, rfl, ?_⟩
    intro hdirty
    cases hdirty

/-- An update cannot tear a settled writer from its store. -/
theorem updated (h : w.Settled states) {new previous : ClusterState} (hkeyed : new.metadata.Keyed)
    (hnew : new ∈ states) {r : Except (Failure Error) WriteStats}
    (hr : w.Updated new previous r w') : w'.Settled states := by
  cases hr with
  | unplanned _ => exact h
  | givenUp _ grown spares =>
    refine h.unchanged (h.sound.unchanged_givenUp grown spares) ?_
    rw [(Cleanup.foldl_run_frame _ _).2.1]
    exact h.failManifest_ne grown
  | idle staged =>
    exact ⟨h.recalls.staged staged hkeyed hnew, staged.grown.current_eq.trans h.inStep,
      h.failManifest_ne staged.grown⟩
  -- No manifest fails dirty here.
  | torn armed _ => exact absurd armed h.unarmed
  | committed ready =>
    refine ⟨(h.recalls.staged ready.staged hkeyed hnew).commit ready.spares _,
      Cleanup.current_foldl_run _ _, ?_⟩
    rw [(Cleanup.foldl_run_frame _ _).2.1]
    intro hdirty
    cases hdirty

/-- After an update that succeeded, an index is stored as the new state has it unless a generation
in another version was kept. -/
theorem upToDate_iff (h : w.Settled states) {new previous : ClusterState} (hnew : new ∈ states)
    (hconsistent : Consistent states) {stats : WriteStats}
    (hr : w.Updated new previous (.ok stats) w') {id : IndexId} {g : Generation}
    (hg : w'.state.manifest.indexGeneration? id = some g) :
    Metadata.SameEntry (w'.store.entryOf? w'.state.manifest id) (new.metadata.index? id) ↔
      (w.state.incremental = true →
        ¬ Stale (w.store.entryOf? w.state.manifest id) previous new id) := by
  cases hr with
  | idle staged => exact staged.upToDate_iff h.recalls hnew hconsistent hg
  | committed ready =>
    rw [(Cleanup.keeps_commit ready.spares _ _).entryOf?_eq]
    exact ready.staged.upToDate_iff h.recalls hnew hconsistent hg

/-- Loading gives the entries that the writer's manifest names. -/
theorem exists_load (h : w.Settled states) :
    ∃ md, w.store.load = .ok (w.state.manifest, md) ∧
      ∀ id, md.index? id = w.store.entryOf? w.state.manifest id := by
  obtain ⟨md, hload, _, _, hindex⟩ := h.recalls.exists_loadFrom
  refine ⟨md, ?_, hindex⟩
  rw [MemoryStore.load_eq_loadFrom, h.inStep]
  exact hload

end Settled

end Writer

/-! ## Calls of a data node -/

namespace DataNode

variable {states : List ClusterState} {new previous : ClusterState}

theorem Persisted.settled {w w' : Writer MemoryStore} {r : Except (Failure Error) WriteStats}
    (h : Persisted w new previous r w') (hw : w.Settled states) (hkeyed : new.metadata.Keyed)
    (hnew : new ∈ states) : w'.Settled states := by
  cases h with
  | refused term => exact hw.termSet term
  | updated term update =>
    rcases term with rfl | term
    · exact hw.updated hkeyed hnew update
    · exact (hw.termSet term).updated hkeyed hnew update

/-- The same of a call that persists a state. -/
theorem Persisted.upToDate_iff {w w' : Writer MemoryStore} {stats : WriteStats}
    (h : Persisted w new previous (.ok stats) w') (hw : w.Settled states) (hnew : new ∈ states)
    (hconsistent : Consistent states) {id : IndexId} {g : Generation}
    (hg : w'.state.manifest.indexGeneration? id = some g) :
    Metadata.SameEntry (w'.store.entryOf? w'.state.manifest id) (new.metadata.index? id) ↔
      (w.state.incremental = true →
        ¬ Stale (w.store.entryOf? w.state.manifest id) previous new id) := by
  cases h with
  | updated term update =>
    rcases term with rfl | term
    · exact hw.upToDate_iff hnew hconsistent update hg
    · -- A recorded term changes neither the flag nor what the manifest names.
      have hiff := (hw.termSet term).upToDate_iff hnew hconsistent update hg
      cases term with
      | committed hs' =>
        subst hs'
        exact hiff

/-! ## Runs of a data node -/

/-- An event of a run in which no manifest fails dirty and all states are among the given ones. -/
def Event.Allowed (states : List ClusterState) : Event → Prop
  | .arm a => a ≠ .manifest .dirty
  | .apply new _ => new.metadata.Keyed ∧ new ∈ states

theorem settled_handle {d : DataNode MemoryStore} (hd : d.writer.Settled states) {event : Event}
    (hevent : event.Allowed states) : (d.handle event).writer.Settled states := by
  cases event with
  | arm a => exact hd.arm hevent
  | apply new previous =>
    obtain ⟨hkeyed, hnew⟩ := hevent
    exact apply_preserves hkeyed (fun _ h => h.sound) (fun h term => h.termSet term)
      (fun h update => h.updated hkeyed hnew update) (fun _ h => h.setIncremental _) hd

theorem settled_start (settings : WriterSettings) : (start settings).writer.Settled states :=
  ⟨.empty _, rfl, fun hdirty => by cases hdirty⟩

/-- A run in which no manifest fails dirty leaves the writer settled. -/
theorem settled_run (settings : WriterSettings) {events : List Event}
    (hevents : ∀ event ∈ events, event.Allowed states) :
    (run settings events).writer.Settled states :=
  run_induction (P := fun d => d.writer.Settled states) (settled_start settings)
    fun _ event hevent hd => settled_handle hd (hevents event hevent)

/-! ## Runs that lose nothing -/

/-- Every state is applied after the one before it, and calls fail only while everything is written
anyway. -/
def Steady (d : DataNode MemoryStore) (last : ClusterState) : List Event → Prop
  | [] => True
  | .arm a :: events => Steady (d.handle (.arm a)) last events
  | .apply new previous :: events =>
    previous = last ∧
      ((∃ dirty, (d.apply new previous).1 = .ok (.failed dirty)) →
        d.writer.state.incremental = false) ∧
      Steady (d.handle (.apply new previous)) new events

/-- If the next cycle is incremental, what is stored has the versions of the state applied last. -/
def Tracks (w : Writer MemoryStore) (last : ClusterState) : Prop :=
  w.state.incremental = true → ∀ id x b, w.store.entryOf? w.state.manifest id = some x →
    last.metadata.index? id = some b → x.version = b.version

/-- While a state is tracked, no generation is stale behind it. -/
theorem Tracks.not_stale {w : Writer MemoryStore} {last : ClusterState} (h : Tracks w last)
    (hincremental : w.state.incremental = true) (id : IndexId) (new : ClusterState) :
    ¬ Stale (w.store.entryOf? w.state.manifest id) last new id := by
  rintro ⟨x, b, e, hx, hb, _, hversion, hne⟩
  exact hne ((h hincremental id x b hx hb).trans hversion)

/-- Persisting a state does not change the flag. -/
theorem Persisted.incremental_eq {w w' : Writer MemoryStore}
    {r : Except (Failure Error) WriteStats} (h : Persisted w new previous r w') :
    w'.state.incremental = w.state.incremental := by
  have hset : ∀ {w₁ : Writer MemoryStore} {r : Except (Failure WriteError) Unit},
      w.TermSet new.term r w₁ → w₁.state.incremental = w.state.incremental := by
    intro w₁ r term
    cases term <;> rfl
  cases h with
  | refused term => exact hset term
  | @updated w₁ _ _ term update =>
    have hflag : w'.state.incremental = w₁.state.incremental := by cases update <;> rfl
    rcases term with rfl | term
    · exact hflag
    · exact hflag.trans (hset term)

/-- A call after a tracked state, and not failing while the flag is set, leaves the new state
tracked. -/
theorem tracks_apply {d : DataNode MemoryStore} (hd : d.writer.Settled states)
    (hkeyed : new.metadata.Keyed) (hnew : new ∈ states) (hconsistent : Consistent states)
    (htracks : Tracks d.writer previous)
    (hfailed : (∃ dirty, (d.apply new previous).1 = .ok (.failed dirty)) →
      d.writer.state.incremental = false) :
    Tracks (d.apply new previous).2.writer new := by
  have happlied := applied hd.sound hkeyed previous
  revert happlied hfailed
  rcases d.apply new previous with ⟨r, d'⟩
  intro hfailed happlied
  cases happlied with
  | skipped _ =>
    -- The next cycle is not incremental.
    intro hincremental
    cases hincremental
  | failed h =>
    -- The call failed with the flag off, and left it off.
    intro hincremental
    have hflag := h.incremental_eq.trans (hfailed ⟨_, rfl⟩)
    rw [hflag] at hincremental
    cases hincremental
  | @persisted stats w' h =>
    intro _ id x b hx hb
    have hx : w'.store.entryOf? w'.state.manifest id = some x := hx
    obtain ⟨g, hg, _⟩ := Option.bind_eq_some_iff.1 hx
    have hrel := (h.upToDate_iff hd hnew hconsistent hg).2 fun hincremental =>
      htracks.not_stale hincremental id new
    rw [hx, hb] at hrel
    cases hrel with
    | some hsame => exact IndexMetadata.version_eq_of_same hsame

/-- At the end of a steady run the state that is said to have been applied last is tracked. -/
theorem tracks_of_steady (hconsistent : Consistent states) {events : List Event}
    (hevents : ∀ event ∈ events, event.Allowed states) {d : DataNode MemoryStore}
    {last : ClusterState} (hd : d.writer.Settled states) (htracks : Tracks d.writer last)
    (hsteady : Steady d last (events ++ [.apply new previous])) :
    Tracks (events.foldl handle d).writer previous := by
  -- By induction on the events, with the state that was applied last.
  induction events generalizing d last with
  | nil =>
    obtain ⟨rfl, _⟩ := hsteady
    exact htracks
  | cons event events ih =>
    obtain ⟨hevent, hrest⟩ := List.forall_mem_cons.1 hevents
    have hd' := settled_handle hd hevent
    cases event with
    | arm a =>
      -- Arming a failure changes nothing that is stored.
      refine ih hrest hd' ?_ hsteady
      intro hincremental id x b hx hb
      have hx : (d.writer.store.arm a).entryOf? d.writer.state.manifest id = some x := hx
      rw [(MemoryStore.keeps_arm a _).entryOf?_eq] at hx
      exact htracks hincremental id x b hx hb
    | apply new₁ previous₁ =>
      obtain ⟨rfl, hfailed, hsteady⟩ := hsteady
      exact ih hrest hd' (tracks_apply hd hevent.1 hevent.2 hconsistent htracks hfailed) hsteady

/-- **When a call that persists a state stores it.** In every run in which no manifest fails dirty,
a call that says that the state is persisted leaves a store that loads under the writer's manifest.
Every index that it names is stored as the new state has it if and only if no generation was kept
whose version is not the one of the new state. That is so in every steady run. -/
theorem persisted_upToDate_iff {settings : WriterSettings} {events : List Event}
    {new previous : ClusterState} {d d' : DataNode MemoryStore} {stats : WriteStats}
    (harmed : ∀ a, Event.arm a ∈ events → a ≠ .manifest .dirty)
    (hkeyed : ∀ s ∈ events.flatMap Event.states ++ [new], s.metadata.Keyed)
    (hconsistent : Consistent (events.flatMap Event.states ++ [new]))
    (hrun : run settings events = d)
    (happly : d.apply new previous = (.ok (.persisted stats), d')) :
    ∃ old md, d.writer.store.load = .ok (d.writer.state.manifest, old) ∧
      d'.writer.store.load = .ok (d'.writer.state.manifest, md) ∧
      ((∀ id ∈ d'.writer.state.manifest.indexGenerations.keys,
          Metadata.SameEntry (md.index? id) (new.metadata.index? id)) ↔
        (d.writer.state.incremental = true →
          ∀ id ∈ d'.writer.state.manifest.indexGenerations.keys,
            ¬ Stale (old.index? id) previous new id)) ∧
      (Steady (start settings) .empty (events ++ [.apply new previous]) →
        ∀ id ∈ d'.writer.state.manifest.indexGenerations.keys,
          Metadata.SameEntry (md.index? id) (new.metadata.index? id)) := by
  subst hrun
  have hnew : new ∈ events.flatMap Event.states ++ [new] :=
    List.mem_append_right _ List.mem_cons_self
  have hallowed : ∀ event ∈ events, event.Allowed (events.flatMap Event.states ++ [new]) := by
    intro event hevent
    cases event with
    | arm a => exact harmed a hevent
    | apply s previous =>
      have hs : s ∈ events.flatMap Event.states ++ [new] :=
        List.mem_append_left _ (List.mem_flatMap.2 ⟨_, hevent, List.mem_cons_self⟩)
      exact ⟨hkeyed s hs, hs⟩
  have hd := settled_run settings hallowed
  have happlied := applied hd.sound (hkeyed new hnew) previous
  rw [happly] at happlied
  cases happlied with
  | @persisted _ w' h =>
    have hd' := h.settled hd (hkeyed new hnew) hnew
    obtain ⟨old, hold, hindex⟩ := hd.exists_load
    obtain ⟨md, hload, hindex'⟩ := hd'.exists_load
    -- Index by index: what is stored is up to date unless a stale generation was kept.
    have hiff : ∀ id ∈ w'.state.manifest.indexGenerations.keys,
        (Metadata.SameEntry (md.index? id) (new.metadata.index? id) ↔
          ((run settings events).writer.state.incremental = true →
            ¬ Stale (old.index? id) previous new id)) := by
      intro id hid
      obtain ⟨g, hg⟩ := SortedMap.mem_keys_iff.1 hid
      rw [hindex, hindex']
      exact h.upToDate_iff hd hnew hconsistent hg
    refine ⟨old, md, hold, hload, ?_, ?_⟩
    · constructor
      · intro hall hincremental id hid
        exact (hiff id hid).1 (hall id hid) hincremental
      · intro hnone id hid
        exact (hiff id hid).2 fun hincremental => hnone hincremental id hid
    · intro hsteady id hid
      -- In a steady run what is stored has the versions of the state before, so none is stale.
      have htracks := tracks_of_steady hconsistent hallowed (settled_start settings)
        (fun _ _ _ _ hx => by cases hx) hsteady
      refine (hiff id hid).2 fun hincremental => ?_
      rw [hindex]
      exact htracks.not_stale hincremental id new

/-- The first call fails, when everything is to be written anyway, and the second one persists. -/
def steadyRun : List Event :=
  [.arm (.index "logs" .clean), .apply (.versioned false 1) .empty,
    .apply (.versioned false 2) (.versioned false 1)]

/-- A third call then keeps the generation that the second one wrote. -/
theorem persisted_steadyRun :
    Steady (start default) .empty
        (steadyRun ++ [.apply (.versioned false 2) (.versioned false 2)]) ∧
      ∃ d' md,
        (run default steadyRun).apply (.versioned false 2) (.versioned false 2) =
          (.ok (.persisted ⟨false, 0, 1, false⟩), d') ∧
        d'.writer.store.load = .ok (d'.writer.state.manifest, md) ∧
        ∀ id ∈ d'.writer.state.manifest.indexGenerations.keys,
          Metadata.SameEntry (md.index? id)
            ((ClusterState.versioned false 2).metadata.index? id) := by
  have houtcome : ((run default steadyRun).apply (.versioned false 2) (.versioned false 2)).1 =
      .ok (.persisted ⟨false, 0, 1, false⟩) := by decide +kernel
  have harmed : ∀ a, Event.arm a ∈ steadyRun → a ≠ .manifest .dirty := by
    intro a ha
    simp only [steadyRun, List.mem_cons, Event.arm.injEq, reduceCtorEq, List.not_mem_nil,
      or_false] at ha
    subst ha
    decide
  have hthird : ¬ ∃ dirty, ((run default steadyRun).apply (.versioned false 2)
      (.versioned false 2)).1 = .ok (.failed dirty) := by
    rintro ⟨dirty, hfailed⟩
    rw [houtcome] at hfailed
    cases hfailed
  have hsteady : Steady (start default) .empty
      (steadyRun ++ [.apply (.versioned false 2) (.versioned false 2)]) :=
    ⟨rfl, fun _ => rfl, rfl, fun _ => by decide +kernel, rfl, fun h => absurd h hthird, trivial⟩
  obtain ⟨old, md, _, hload, _, hsame⟩ := persisted_upToDate_iff harmed (by decide +kernel)
    (by decide +kernel) rfl (Prod.ext houtcome rfl)
  exact ⟨hsteady, _, md, Prod.ext houtcome rfl, hload, hsame hsteady⟩

/-- The second call fails. -/
def lostRun : List Event :=
  [.apply (.versioned false 1) .empty, .arm (.index "logs" .clean),
    .apply (.versioned false 2) (.versioned false 1)]

/-- The version in which loading gives an index. -/
def loadedVersion (d : DataNode MemoryStore) (id : IndexId) : Option UInt64 :=
  match d.writer.store.load with
  | .ok (_, md) => (md.index? id).map (·.version)
  | .error _ => none

/-- A third call applies the state of the second one again. It says that the state is persisted,
with nothing but a manifest written, and the index is stored in the version before. -/
theorem persisted_outdated :
    (∀ s ∈ lostRun.flatMap Event.states ++ [.versioned false 2], s.metadata.Keyed) ∧
      Consistent (lostRun.flatMap Event.states ++ [.versioned false 2]) ∧
      ∃ d', (run default lostRun).apply (.versioned false 2) (.versioned false 2) =
          (.ok (.persisted ⟨false, 0, 1, true⟩), d') ∧
        d'.writer.state.manifest.indexGeneration? ⟨"logs", "u1"⟩ = some 1 ∧
        loadedVersion d' ⟨"logs", "u1"⟩ = some 1 ∧
        ((ClusterState.versioned false 2).metadata.index? ⟨"logs", "u1"⟩).map (·.version) =
          some 2 := by
  have houtcome : ((run default lostRun).apply (.versioned false 2) (.versioned false 2)).1 =
      .ok (.persisted ⟨false, 0, 1, true⟩) := by decide +kernel
  refine ⟨?_, ?_, _, Prod.ext houtcome rfl, ?_, ?_, ?_⟩ <;> decide +kernel

end DataNode

end DurableState
