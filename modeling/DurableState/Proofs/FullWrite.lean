import DurableState.Proofs.Incremental
import DurableState.Proofs.Loadable
import DurableState.Proofs.Retry

/-!
# DurableState.Proofs.FullWrite — a full write repairs any history

After a state that may not be persisted, the next write of a data node is a full one. No failure
turns the flag on again, so it is full also if calls fail or are skipped before it.

* `update_stats` — what an update reports, read off its plan;
* `full_update` — a full update writes all of its state, whatever the store was before;
* `persisted_after_skip` — the first call that persists a state after a skipped one writes and
  stores all of it.
-/

namespace DurableState

/-! ## What an update reports -/

namespace Transaction

variable {σ : Type} {t t' : Transaction σ}

/-- The transaction has counted so many more indices, written and skipped. -/
structure Counted (t : Transaction σ) (written skipped : Nat) (t' : Transaction σ) : Prop where
  written : t'.indicesWritten = t.indicesWritten + written
  skipped : t'.indicesSkipped = t.indicesSkipped + skipped

theorem Counted.trans {n k n' k' : Nat} {t'' : Transaction σ} (h : t.Counted n k t')
    (h' : t'.Counted n' k' t'') : t.Counted (n + n') (k + k') t'' := by
  constructor
  · rw [h'.written, h.written, Nat.add_assoc]
  · rw [h'.skipped, h.skipped, Nat.add_assoc]

variable [Store σ]

/-- A part that is accepted is counted if it is an index. -/
theorem counted_writePart {reason : String} {part : StatePart} {g : Generation}
    (h : t.writePart reason part = (.ok g, t')) : t.Counted part.indexCount 0 t' := by
  cases hfinished : t.finished with
  | true => cases part <;> simp [writePart, writeGlobal, writeIndex, hfinished] at h
  | false =>
    rw [writePart_eq hfinished] at h
    rcases hwrite : part.write t.store reason with ⟨(e | c) | g', s'⟩
    · simp [hwrite] at h
    · simp [hwrite] at h
    · simp only [hwrite, Prod.mk.injEq] at h
      rcases h with ⟨_, rfl⟩
      exact ⟨rfl, rfl⟩

/-- An action is counted as written or as skipped. -/
theorem counted_execute {a : IndexAction} {g : Generation} (h : t.execute a = (.ok g, t')) :
    t.Counted (a.entry?.toList.length) (if a.entry?.isNone then 1 else 0) t' := by
  cases hentry : a.entry? with
  | none =>
    cases a with
    | keep id g' =>
      -- A generation that is kept is not written.
      rcases Prod.mk.inj h with ⟨_, rfl⟩
      exact ⟨rfl, rfl⟩
    | create e => cases hentry
    | update old e => cases hentry
  | some e =>
    rcases execute_eq_writePart hentry with ⟨reason, heq⟩
    rw [heq] at h
    exact counted_writePart h

/-- So are all actions of a plan, each once. -/
theorem counted_executeAll {actions : List IndexAction}
    {generations generations' : SortedMap IndexId Generation}
    (h : t.executeAll actions generations = (.ok generations', t')) :
    t.Counted (actions.filterMap IndexAction.entry?).length
      (actions.filter fun a => a.entry?.isNone).length t' := by
  induction actions generalizing t generations with
  | nil =>
    rcases Prod.mk.inj h with ⟨_, rfl⟩
    exact ⟨rfl, rfl⟩
  | cons a actions ih =>
    unfold executeAll at h
    rcases hfirst : t.execute a with ⟨f | g, t₁⟩
    · simp [hfirst] at h
    · simp only [hfirst] at h
      have hcounted := (counted_execute hfirst).trans (ih h)
      -- An action without an entry is skipped, and every other one is written.
      cases hentry : a.entry? with
      | none =>
        rw [List.filterMap_cons_none hentry, List.filter_cons_of_pos (by simp [hentry]),
          List.length_cons]
        simpa [hentry, Nat.add_comm] using hcounted
      | some e =>
        rw [List.filterMap_cons_some hentry, List.filter_cons_of_neg (by simp [hentry]),
          List.length_cons]
        simpa [hentry, Nat.add_comm] using hcounted

theorem counted_commit {reason : String} {m : Manifest}
    (h : t.commit reason m = (.ok (), t')) : t.Counted 0 0 t' := by
  unfold commit at h
  split at h
  · simp at h
  · split at h
    · rcases Prod.mk.inj h with ⟨_, rfl⟩
      exact ⟨rfl, rfl⟩
    · simp at h
    · simp at h

end Transaction

/-- Up to its manifest a cycle has counted the actions of its plan. -/
theorem WriterState.counted_stage {σ : Type} [Store σ] {w : WriterState} {s : σ} {p : CyclePlan}
    {new : ClusterState} {m : Manifest} {t : Transaction σ}
    (h : w.stage s p new = (.ok m, t)) :
    (w.begin s).Counted p.writtenIds.length
      (p.actions.filter fun a => a.entry?.isNone).length t := by
  unfold stage at h
  rcases hglobal : w.writeGlobalPart (w.begin s) p new.metadata with ⟨f | g, t₁⟩
  · simp [hglobal] at h
  · simp only [hglobal] at h
    -- The global part is not counted as an index.
    have hfirst : (w.begin s).Counted 0 0 t₁ := by
      unfold writeGlobalPart at hglobal
      split at hglobal
      · have hwrite : (w.begin s).writePart "changed" (.global new.metadata) = (.ok g, t₁) :=
          hglobal
        exact Transaction.counted_writePart hwrite
      · rcases Prod.mk.inj hglobal with ⟨_, rfl⟩
        exact ⟨rfl, rfl⟩
    rcases hall : t₁.executeAll p.actions ∅ with ⟨f | generations, t₂⟩
    · simp [hall] at h
    · simp only [hall, Prod.mk.injEq] at h
      rcases h with ⟨_, rfl⟩
      have hcounted := hfirst.trans (Transaction.counted_executeAll hall)
      simpa [CyclePlan.writtenIds] using hcounted

/-- An update reports what its plan says, and whether the manifest has changed. -/
theorem Writer.update_stats {σ : Type} [Store σ] {w w' : Writer σ} {new previous : ClusterState}
    {p : CyclePlan} {stats : WriteStats} (hplanned : w.state.cyclePlan new previous = .ok p)
    (h : w.update new previous = (.ok stats, w')) :
    stats = ⟨p.writesGlobal, p.writtenIds.length,
      (p.actions.filter fun a => a.entry?.isNone).length,
      decide (w'.state.manifest ≠ w.state.manifest)⟩ := by
  simp only [update, WriterState.cycle, hplanned, WriterState.carryOut] at h
  rcases hstage : w.state.stage w.store p new with ⟨f | m, t⟩
  · simp [hstage] at h
  · have hcounted := WriterState.counted_stage hstage
    simp only [hstage, WriterState.commitIfChanged] at h
    by_cases hm : m = w.state.manifest
    · -- The same manifest is not written again.
      simp only [if_pos hm, Prod.mk.injEq, Except.ok.injEq] at h
      rcases h with ⟨rfl, rfl⟩
      rw [hcounted.written, hcounted.skipped]
      simp [WriterState.begin, hm]
    · simp only [if_neg hm] at h
      rcases hcommit : t.commit "changed" m with ⟨f | u, t'⟩
      · simp [hcommit] at h
      · have hcounted := hcounted.trans (Transaction.counted_commit hcommit)
        simp only [hcommit, Prod.mk.injEq, Except.ok.injEq] at h
        rcases h with ⟨rfl, rfl⟩
        rw [hcounted.written, hcounted.skipped]
        simp [WriterState.begin, hm]

/-! ## What a full update leaves -/

namespace Metadata

/-- The metadata with the given indices alone. -/
def restrict (m : Metadata) (ids : IndexSet) : Metadata :=
  { m with indices := m.indices.filter fun _ e => ids.contains e.index }

variable {m : Metadata}

/-- Under a name there is left what was there, if the index is among those given. -/
theorem get?_restrict (m : Metadata) (ids : IndexSet) (name : String) (e : IndexMetadata) :
    (m.restrict ids).indices.get? name = some e ↔
      m.indices.get? name = some e ∧ ids.contains e.index = true := by
  show (m.indices.filter fun _ e => ids.contains e.index).get? name = some e ↔ _
  rw [SortedMap.get?_filter, Option.filter_eq_some_iff]

theorem Keyed.restrict (h : m.Keyed) (ids : IndexSet) : (m.restrict ids).Keyed := by
  intro name e he
  exact h name e ((m.get?_restrict ids name e).1 he).1

/-- Of the metadata the given indices are left, each as it was. -/
theorem Keyed.index?_restrict (h : m.Keyed) (ids : IndexSet) (id : IndexId) :
    (m.restrict ids).index? id = if ids.contains id then m.index? id else none := by
  apply Option.ext
  intro e
  rw [index?_eq_some_iff, get?_restrict, and_right_comm, ← index?_eq_some_iff]
  constructor
  · -- An entry stands under the name of its index, so both sides ask for the same one.
    rintro ⟨he, hin⟩
    rw [h.index_eq he] at hin
    rw [if_pos hin]
    exact he
  · intro he
    split at he
    next hin =>
      rw [h.index_eq he]
      exact ⟨he, hin⟩
    next => cases he

end Metadata

namespace Writer

variable {w w' : Writer MemoryStore} {new previous : ClusterState} {stats : WriteStats}

/-- The state was written in full: the global part, every relevant index and a manifest, and the
store then loads the state as far as it is relevant. Which indices are depends on those that had a
generation before. -/
structure WroteAll (new previous : ClusterState) (generations : SortedMap IndexId Generation)
    (stats : WriteStats) (w' : Writer MemoryStore) : Prop where
  globalWritten : stats.globalWritten = true
  indicesSkipped : stats.indicesSkipped = 0
  manifestWritten : stats.manifestWritten = true
  loads : ∃ role relevant, new.localRole = .ok role ∧
    relevantIndices role new previous generations = .ok relevant ∧
    (∀ id ∈ relevant.keys, ∃ e, new.metadata.index? id = some e) ∧
    w'.store.load = .ok (w'.state.manifest, new.metadata.restrict relevant)

theorem WroteAll.setIncremental {generations : SortedMap IndexId Generation}
    (h : w'.WroteAll new previous generations stats) (incremental : Bool) :
    (w'.setIncremental incremental).WroteAll new previous generations stats :=
  ⟨h.globalWritten, h.indicesSkipped, h.manifestWritten, h.loads⟩

/-- Whatever the store was before, a full update writes all of its state. -/
theorem full_update (hsound : w.Sound) (hfull : w.state.incremental = false)
    (hnew : new.metadata.Keyed) (hok : w.update new previous = (.ok stats, w')) :
    w'.WroteAll new previous w.state.manifest.indexGenerations stats := by
  cases hplanned : w.state.cyclePlan new previous with
  | error e => simp [update, WriterState.cycle, hplanned] at hok
  | ok p =>
    rcases WriterState.cyclePlan_eq_ok hplanned with
      ⟨role, relevant, hrole, hrelevant, hall, hglobal⟩
    have hp := WriterState.cyclePlan_fits hnew hplanned
    have hids := WriterState.map_index_eq_keys hnew hall
    have hwrites : p.writesGlobal = true := by
      rw [hglobal, hfull]
      rfl
    -- Only an incremental cycle keeps a generation, so no index is skipped.
    have hskipped : (p.actions.filter fun a => a.entry?.isNone) = [] := by
      rw [List.filter_eq_nil_iff]
      intro a ha hnone
      cases a with
      | keep id g =>
        have hincremental := (hp.keep id g ha).1
        rw [hfull] at hincremental
        cases hincremental
      | create e => cases hnone
      | update old e => cases hnone
    rcases succeeded hsound.wellFormed hnew hplanned hok with ⟨ws, s', m, h⟩
    have hmanifest : w'.state.manifest = m := by rw [h.state]
    -- The generation of the global part is a new one, so the manifest is not the one before.
    have hchanged := h.changed hsound (.inl hwrites)
    have hstats := update_stats hplanned hok
    rcases h.exists_load hsound hnew (h.current_eq fun heq => absurd heq hchanged) with
      ⟨md, hload, hleaves⟩
    rcases hleaves.eq_of_full hp hfull with ⟨hglobalState, hindex⟩
    -- The metadata that is loaded has the same global part and the same entry of every index.
    have hmd : md = new.metadata.restrict relevant := by
      refine hleaves.keyed.eq_of_index? (hnew.restrict relevant) hglobalState ?_
      intro id
      rw [hnew.index?_restrict]
      by_cases hid : id ∈ relevant.keys
      · have hin : relevant.contains id = true :=
          Option.isSome_iff_exists.2 (SortedMap.mem_keys_iff.1 hid)
        rw [if_pos hin]
        exact hindex id (hids ▸ hid)
      · have hout : ¬ relevant.contains id = true := fun hin =>
          hid (SortedMap.mem_keys_iff.2 (Option.isSome_iff_exists.1 hin))
        rw [if_neg hout]
        exact hleaves.gone id (hids ▸ hid)
    rw [hstats, hskipped, hmanifest]
    refine ⟨hwrites, rfl, decide_eq_true hchanged, role, relevant, hrole, hrelevant, ?_, ?_⟩
    · intro id hid
      exact hp.exists_index? (hids ▸ hid)
    · rw [← hmd, hmanifest]
      exact hload

end Writer

/-! ## Runs of a data node -/

namespace DataNode

variable {d d' : DataNode MemoryStore} {new previous : ClusterState}

/-- Whether the event persists a state. -/
def persists (d : DataNode MemoryStore) : Event → Bool
  | .arm _ => false
  | .apply new previous =>
    match (d.apply new previous).1 with
    | .ok (.persisted _) => true
    | _ => false

/-- No event of the run persists a state. -/
def Unpersisted (d : DataNode MemoryStore) : List Event → Prop
  | [] => True
  | event :: events => d.persists event = false ∧ (d.handle event).Unpersisted events

instance decidableUnpersisted (d : DataNode MemoryStore) (events : List Event) :
    Decidable (d.Unpersisted events) :=
  match events with
  | [] => .isTrue trivial
  | event :: events =>
    have := decidableUnpersisted (d.handle event) events
    inferInstanceAs (Decidable (d.persists event = false ∧ _))

/-- The next write is a full one, on a sound writer. -/
structure Due (d : DataNode MemoryStore) : Prop where
  sound : d.writer.Sound
  full : d.writer.state.incremental = false

/-- After a state that is skipped a full write is due. -/
theorem due_of_skipped (hd : d.writer.Sound) (hnew : new.metadata.Keyed)
    (hskipped : (d.apply new previous).1 = .ok .skipped) : (d.apply new previous).2.Due := by
  have happlied := applied hd hnew previous
  revert happlied hskipped
  rcases d.apply new previous with ⟨r, d'⟩
  rintro rfl happlied
  cases happlied with
  | skipped _ => exact ⟨hd.setIncremental false, rfl⟩

/-- Only a call that persists a state lets later ones be incremental. -/
theorem Due.handle (h : d.Due) {event : Event} (hkeyed : ∀ s ∈ event.states, s.metadata.Keyed)
    (hevent : d.persists event = false) : (d.handle event).Due := by
  cases event with
  | arm a => exact ⟨h.sound.arm a, h.full⟩
  | apply new previous =>
    have hnew := hkeyed new (List.mem_singleton_self new)
    refine ⟨apply_preserves hnew (fun _ h => h) (fun h term => h.termSet term)
      (fun h update => h.updated update) (fun _ h => h.setIncremental _) h.sound, ?_⟩
    have happlied := applied h.sound hnew previous
    -- A term and an update that fails leave the flag, and a skipped state clears it once more.
    unfold persists at hevent
    show (d.apply new previous).2.writer.state.incremental = false
    revert happlied hevent
    dsimp only
    rcases d.apply new previous with ⟨r, d'⟩
    intro hevent happlied
    cases happlied with
    | skipped _ => rfl
    | persisted _ => cases hevent
    | failed hfailed => exact hfailed.incremental_eq.trans h.full

theorem Due.handleAll (h : d.Due) {events : List Event}
    (hkeyed : ∀ s ∈ events.flatMap Event.states, s.metadata.Keyed)
    (hevents : d.Unpersisted events) : (events.foldl DataNode.handle d).Due := by
  -- By induction on the events, none of which persists a state.
  induction events generalizing d with
  | nil => exact h
  | cons event events ih =>
    rcases hevents with ⟨hevent, hevents⟩
    have hstep := h.handle (fun s hs => hkeyed s (List.mem_append_left _ hs)) hevent
    exact ih hstep (fun s hs => hkeyed s (List.mem_append_right _ hs)) hevents

/-- A state is persisted by recording its term, if it is higher, and an update. -/
theorem persist_eq_ok {w w' : Writer MemoryStore} (hs : w.store.WellFormed) {stats : WriteStats}
    (h : persist w new previous = (.ok stats, w')) :
    ∃ w₁, (w₁ = w ∨ w.TermSet new.term (.ok ()) w₁) ∧
      w₁.update new previous = (.ok stats, w') := by
  unfold persist raiseTerm at h
  split at h
  next w₁ hraised =>
    split at hraised
    · have hset := Writer.termSet hs new.term
      revert hset hraised
      rcases w.setTerm new.term with ⟨f | u, w₂⟩
      · -- A term that is not recorded ends the call.
        intro hraised
        simp at hraised
      · intro hraised hset
        obtain rfl : w₂ = w₁ := (Prod.mk.inj hraised).2
        exact ⟨w₂, .inr hset, h⟩
    · obtain rfl : w = w₁ := (Prod.mk.inj hraised).2
      exact ⟨w, .inl rfl, h⟩
  next => simp at h

/-- A call that persists a state while a full write is due writes and stores all of it. -/
theorem Due.persisted (h : d.Due) (hnew : new.metadata.Keyed) {stats : WriteStats}
    (happly : d.apply new previous = (.ok (.persisted stats), d')) :
    d'.writer.WroteAll new previous d.writer.state.manifest.indexGenerations stats := by
  unfold apply at happly
  split at happly
  · simp at happly
  · split at happly
    next stats' w' hpersist =>
      rcases Prod.mk.inj happly with ⟨hstats, rfl⟩
      obtain rfl : stats' = stats := ApplyOutcome.persisted.inj (Except.ok.inj hstats)
      rcases persist_eq_ok h.sound.wellFormed hpersist with ⟨w₁, rfl | hterm, hupdate⟩
      · exact (Writer.full_update h.sound h.full hnew hupdate).setIncremental true
      · -- A recorded term changes neither the flag nor the generations.
        have hsound := h.sound.termSet hterm
        cases hterm with
        | committed hs' =>
          have hall := Writer.full_update hsound h.full hnew hupdate
          exact hall.setIncremental true
    next => simp at happly
    next => simp at happly

/-- **A full write repairs any history.** Take any run from an empty store, whatever failed in it
and however its store was left, a state that is skipped, and then any calls that are skipped or
fail. The first call after them that persists a state has written the global part, every relevant
index and the manifest, and the store then loads, under the writer's manifest, the new state with
exactly the indices that are relevant. -/
theorem persisted_after_skip {settings : WriterSettings} {before between : List Event}
    {blocked earlier new previous : ClusterState} {d d' : DataNode MemoryStore}
    {stats : WriteStats}
    (hkeyed : ∀ s ∈ (before ++ .apply blocked earlier :: between).flatMap Event.states ++ [new],
      s.metadata.Keyed)
    (hskipped : ((run settings before).apply blocked earlier).1 = .ok .skipped)
    (hbetween : ((run settings before).handle (.apply blocked earlier)).Unpersisted between)
    (hrun : run settings (before ++ .apply blocked earlier :: between) = d)
    (happly : d.apply new previous = (.ok (.persisted stats), d')) :
    stats.globalWritten = true ∧ stats.indicesSkipped = 0 ∧ stats.manifestWritten = true ∧
      ∃ role relevant, new.localRole = .ok role ∧
        relevantIndices role new previous d.writer.state.manifest.indexGenerations =
          .ok relevant ∧
        (∀ id ∈ relevant.keys, ∃ e, new.metadata.index? id = some e) ∧
        d'.writer.store.load =
          .ok (d'.writer.state.manifest, new.metadata.restrict relevant) := by
  simp only [List.flatMap_append, List.flatMap_cons, List.forall_mem_append, Event.states,
    List.forall_mem_singleton] at hkeyed
  rcases hkeyed with ⟨⟨hbefore, hblocked, hkeyed⟩, hnew⟩
  -- The skipped state makes a full write due, and none of the calls between ends that.
  have hdue := due_of_skipped (traced_run settings hbefore).sound hblocked hskipped
  have hlast := Due.handleAll hdue hkeyed hbetween
  have hfold : between.foldl handle ((run settings before).apply blocked earlier).2 = d := by
    rw [← hrun]
    unfold run
    rw [List.foldl_append, List.foldl_cons]
    rfl
  rw [hfold] at hlast
  have hall := hlast.persisted hnew happly
  exact ⟨hall.globalWritten, hall.indicesSkipped, hall.manifestWritten, hall.loads⟩

/-- A state that may not be persisted. -/
def blockedState : ClusterState := { ClusterState.versioned false 4 with blocks := ⟨true⟩ }

/-- Calls that fail or are skipped: an index fails, then a manifest, dirty. -/
def failingCalls : List Event :=
  [.arm (.index "logs" .clean), .apply (.versioned false 5) blockedState, .arm (.manifest .dirty),
    .apply (.versioned false 5) (.versioned false 5), .apply blockedState (.versioned false 5)]

/-- A data node whose store cannot be loaded, and then these calls. -/
def battered : DataNode MemoryStore :=
  run default (lostRollback ++ .apply blockedState .empty :: failingCalls)

/-- The call that persists the next state is told that this had been applied before, and writes it
nevertheless. -/
theorem persisted_after_failingCalls :
    (∀ r, (run default lostRollback).writer.store.load ≠ .ok r) ∧
      ∃ d', battered.apply (.versioned false 5) (.versioned false 5) =
          (.ok (.persisted ⟨true, 1, 0, true⟩), d') ∧
        ∃ relevant, relevant.keys = [⟨"logs", "u1"⟩] ∧
          d'.writer.store.load = .ok (d'.writer.state.manifest,
            (ClusterState.versioned false 5).metadata.restrict relevant) := by
  have hlost : (run default lostRollback).writer.store.load.toOption.isNone = true := by
    decide +kernel
  have hskipped : ((run default lostRollback).apply blockedState .empty).1 = .ok .skipped := by
    decide +kernel
  have hfailing : ((run default lostRollback).handle (.apply blockedState .empty)).Unpersisted
      failingCalls := by decide +kernel
  have houtcome : (battered.apply (.versioned false 5) (.versioned false 5)).1 =
      .ok (.persisted ⟨true, 1, 0, true⟩) := by decide +kernel
  rcases persisted_after_skip (by decide +kernel) hskipped hfailing rfl
    (Prod.ext houtcome rfl) with ⟨_, _, _, role, relevant, hrole, hrelevant, _, hload⟩
  have hdata : (ClusterState.versioned false 5).localRole = .ok .dataOnly := by decide +kernel
  obtain rfl : Role.dataOnly = role := Except.ok.inj (hdata.symm.trans hrole)
  have hkeys : (relevantIndices .dataOnly (.versioned false 5) (.versioned false 5)
      battered.writer.state.manifest.indexGenerations).map SortedMap.keys =
        .ok [⟨"logs", "u1"⟩] := by decide +kernel
  have hrelevant : relevantIndices .dataOnly (.versioned false 5) (.versioned false 5)
    battered.writer.state.manifest.indexGenerations = .ok relevant := hrelevant
  rw [hrelevant] at hkeys
  refine ⟨?_, _, Prod.ext houtcome rfl, relevant, Except.ok.inj hkeys, hload⟩
  intro r hr
  rw [hr] at hlost
  cases hlost

end DataNode

end DurableState
