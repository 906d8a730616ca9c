import DurableState.Proofs.LostUpdate
import DurableState.Proofs.Success

/-!
# DurableState.Proofs.Incremental — leaving out what did not change makes no difference

An incremental cycle keeps the generations of what did not change since the state before. If that
state is always the one that the writer last committed, then what is kept is what a full cycle would
write: the global part and every entry that the manifest names are in the store as the committed
state has them (`Mirrors`). So both cycles lead to the same metadata
(`incremental_agrees_with_full`).
-/

namespace DurableState

/-! ## Plans with and without the flag -/

/-- Whether an index can be planned does not depend on the metadata before. -/
theorem planIndex_error_or_ok (written : SortedMap IndexId Generation) (new : Metadata)
    (id : IndexId) :
    (∃ e, ∀ before, planIndex written before new id = .error e) ∨
      ∀ before, ∃ a, planIndex written before new id = .ok a := by
  unfold planIndex
  cases new.index id with
  -- The index is not in the new metadata, whatever was before.
  | error e => exact .inl ⟨e, fun _ => rfl⟩
  | ok current =>
    right
    intro before
    dsimp only
    split
    · split
      · exact ⟨_, rfl⟩
      · exact ⟨_, rfl⟩
    · exact ⟨_, rfl⟩

namespace WriterState

variable {new previous : ClusterState}

/-- With and without the flag a cycle has a plan, or fails in the same way. -/
theorem cyclePlan_error_or_ok (w : WriterState) (new previous : ClusterState) :
    (∃ e, ∀ b, { w with incremental := b }.cyclePlan new previous = .error e) ∨
      ∀ b, ∃ p, { w with incremental := b }.cyclePlan new previous = .ok p := by
  unfold cyclePlan plan
  dsimp only
  -- The role and the relevant indices do not depend on the flag; only the actions do.
  cases new.localRole with
  | error e => exact .inl ⟨e, fun _ => rfl⟩
  | ok role =>
    cases hrelevant : relevantIndices role new previous w.manifest.indexGenerations with
    | error e =>
      refine .inl ⟨e, fun b => ?_⟩
      simp [bind, Except.bind, hrelevant]
    | ok relevant =>
      rcases mapM_error_or_ok (planIndex_error_or_ok w.manifest.indexGenerations new.metadata)
        relevant.keys with ⟨e, he⟩ | hok
      · refine .inl ⟨e, fun b => ?_⟩
        simp [bind, Except.bind, hrelevant, he]
      · refine .inr fun b => ?_
        obtain ⟨actions, hactions⟩ := hok (if b then some previous.metadata else none)
        simp [bind, Except.bind, hrelevant, hactions, pure, Except.pure]

/-- Both plans have actions for the same indices. -/
theorem map_index_actions_eq {w : WriterState} {b b' : Bool} {p p' : CyclePlan}
    (hnew : new.metadata.Keyed) (h : { w with incremental := b }.cyclePlan new previous = .ok p)
    (h' : { w with incremental := b' }.cyclePlan new previous = .ok p') :
    p'.actions.map IndexAction.index = p.actions.map IndexAction.index := by
  obtain ⟨role, relevant, hrole, hrelevant, hall, _⟩ := cyclePlan_eq_ok h
  obtain ⟨role', relevant', hrole', hrelevant', hall', _⟩ := cyclePlan_eq_ok h'
  rw [hrole] at hrole'
  obtain rfl := Except.ok.inj hrole'
  have hsame : relevant' = relevant := Except.ok.inj (hrelevant'.symm.trans hrelevant)
  rw [map_index_eq_keys hnew hall, map_index_eq_keys hnew hall', hsame]

end WriterState

/-! ## Writers whose updates follow each other -/

namespace Writer

variable {states : List ClusterState} {w w' : Writer MemoryStore} {new : ClusterState}

/-- What the writer's manifest names is in the store as the committed state has it: the global part
in content, every entry in its version. -/
structure Mirrors (states : List ClusterState) (w : Writer MemoryStore) : Prop where
  settled : w.Settled states
  global : (w.store.globalOf w.state.manifest).sameContent
    w.state.clusterState.metadata.globalState = true
  version : ∀ id x b, w.store.entryOf? w.state.manifest id = some x →
    w.state.clusterState.metadata.index? id = some b → x.version = b.version

namespace Mirrors

/-- What is stored has the version of the committed state, so nothing is hidden by it. -/
theorem not_stale (h : w.Mirrors states) (id : IndexId) :
    ¬ Stale (w.store.entryOf? w.state.manifest id) w.state.clusterState new id := by
  rintro ⟨x, b, e, hx, hb, _, hversion, hne⟩
  exact hne ((h.version id x b hx hb).trans hversion)

theorem setIncremental (h : w.Mirrors states) (incremental : Bool) :
    (w.setIncremental incremental).Mirrors states :=
  ⟨h.settled.setIncremental incremental, h.global, h.version⟩

/-- A store that keeps what the manifest names can take the place of the writer's. -/
theorem unchanged (h : w.Mirrors states) {s' : MemoryStore} (hs' : w.Unchanged s')
    (hsettled : Settled states { w with store := s' }) : Mirrors states { w with store := s' } where
  settled := hsettled
  global := by
    show (s'.globalOf w.state.manifest).sameContent _ = true
    rw [hs'.keeps.globalOf_eq]
    exact h.global
  version id x b hx hb := by
    have hx : s'.entryOf? w.state.manifest id = some x := hx
    rw [hs'.keeps.entryOf?_eq] at hx
    exact h.version id x b hx hb

theorem arm (h : w.Mirrors states) {a : Arming} (ha : a ≠ .manifest .dirty) :
    (w.arm a).Mirrors states :=
  h.unchanged ⟨MemoryStore.wellFormed_arm h.settled.sound.wellFormed a, MemoryStore.current_arm a,
    MemoryStore.keeps_arm a _⟩ (h.settled.arm ha)

theorem termSet (h : w.Mirrors states) {term : UInt64} {r : Except (Failure WriteError) Unit}
    (hr : w.TermSet term r w') : w'.Mirrors states := by
  have hsettled := h.settled.termSet hr
  cases hr with
  | refused grown => exact h.unchanged (h.settled.sound.unchanged_grown grown) hsettled
  | torn armed _ => exact absurd armed h.settled.unarmed
  | committed hs' =>
    subst hs'
    exact ⟨hsettled, h.global, h.version⟩

/-- With all units of a cycle written, the global part is the new one in content. -/
theorem globalOf_staged (h : w.Mirrors states) {p : CyclePlan}
    {ws : List (StatePart × Generation)} {s' : MemoryStore} {m : Manifest}
    (hstaged : p.Staged w.state new w.state.clusterState w.store ws s' m) :
    (s'.globalOf m).sameContent new.metadata.globalState = true := by
  rcases hstaged.globalOf_cases h.settled.recalls.holds with ⟨hsame, hkept⟩ | hwritten
  · -- It is kept only if its content is that of the committed state, and so that of the new one.
    rw [hkept]
    exact GlobalState.sameContent_trans h.global hsame
  · rw [hwritten]
    exact GlobalState.sameContent_refl _

/-- And every entry that the manifest names has the new version. -/
theorem version_staged (h : w.Mirrors states) (hconsistent : Consistent states)
    (hnew : new ∈ states) {p : CyclePlan} {ws : List (StatePart × Generation)}
    {s' : MemoryStore} {m : Manifest}
    (hstaged : p.Staged w.state new w.state.clusterState w.store ws s' m) {id : IndexId}
    {x b : IndexMetadata} (hx : s'.entryOf? m id = some x) (hb : new.metadata.index? id = some b) :
    x.version = b.version := by
  obtain ⟨g, hg, _⟩ := Option.bind_eq_some_iff.1 hx
  have hrel :=
    (hstaged.upToDate_iff h.settled.recalls hnew hconsistent hg).2 fun _ => h.not_stale id
  rw [hx, hb] at hrel
  cases hrel with
  | some hsame => exact IndexMetadata.version_eq_of_same hsame

/-- An update from the committed state leaves a writer that mirrors the new one. -/
theorem updated (h : w.Mirrors states) (hkeyed : new.metadata.Keyed) (hnew : new ∈ states)
    (hconsistent : Consistent states) {r : Except (Failure Error) WriteStats}
    (hr : w.Updated new w.state.clusterState r w') : w'.Mirrors states := by
  have hsettled := h.settled.updated hkeyed hnew hr
  cases hr with
  | unplanned _ => exact h
  | givenUp _ grown spares =>
    exact h.unchanged (h.settled.sound.unchanged_givenUp grown spares) hsettled
  | idle staged =>
    exact ⟨hsettled, h.globalOf_staged staged,
      fun _ _ _ hx hb => h.version_staged hconsistent hnew staged hx hb⟩
  | torn armed _ => exact absurd armed h.settled.unarmed
  | @committed p ws t m stats ready =>
    -- The cleanups after a commit leave what the new manifest names.
    have hkeeps := Cleanup.keeps_commit ready.spares t.store (.writeManifest m)
    refine ⟨hsettled, ?_, ?_⟩
    · show (MemoryStore.globalOf _ m).sameContent _ = true
      rw [hkeeps.globalOf_eq]
      exact h.globalOf_staged ready.staged
    · intro id x b hx hb
      have hx : MemoryStore.entryOf? _ m id = some x := hx
      rw [hkeeps.entryOf?_eq] at hx
      exact h.version_staged hconsistent hnew ready.staged hx hb

/-- A writer that goes on from what is stored mirrors it. -/
theorem reopened (h : w.Settled states) {settings : WriterSettings}
    (hopen : Writer.open w.store settings = .ok w') : w'.Mirrors states := by
  obtain ⟨m, md, hload, rfl⟩ := open_eq_ok_iff.1 hopen
  -- The committed state of the new writer is what was loaded, so it has what the manifest names.
  obtain ⟨md', hload', _, hglobal, hindex⟩ := h.recalls.exists_loadFrom
  rw [MemoryStore.load_eq_loadFrom, h.inStep, hload'] at hload
  obtain ⟨rfl, rfl⟩ := Prod.mk.inj (Except.ok.inj hload)
  refine ⟨⟨h.recalls, h.inStep, h.unarmed⟩, ?_, ?_⟩
  · show (w.store.globalOf w.state.manifest).sameContent md'.globalState = true
    rw [hglobal]
    exact GlobalState.sameContent_refl _
  · intro id x b hx hb
    have hx : w.store.entryOf? w.state.manifest id = some x := hx
    have hb : md'.index? id = some b := hb
    rw [hindex, hx] at hb
    obtain rfl := Option.some.inj hb
    rfl

end Mirrors

/-- The writers that can be reached from an empty store without a dirty failure of a manifest, by
updates to the given states, each with the state that the writer last committed as the one
before. -/
inductive Following (states : List ClusterState) : Writer MemoryStore → Prop
  | opened {settings : WriterSettings} {w : Writer MemoryStore}
      (h : Writer.open MemoryStore.empty settings = .ok w) : Following states w
  | armed {w : Writer MemoryStore} (h : Following states w) {a : Arming}
      (ha : a ≠ .manifest .dirty) : Following states (w.arm a)
  | flagged {w : Writer MemoryStore} (h : Following states w) (incremental : Bool) :
      Following states (w.setIncremental incremental)
  | updated {w : Writer MemoryStore} (h : Following states w) {new : ClusterState}
      (hnew : new ∈ states) : Following states (w.update new w.state.clusterState).2
  | termSet {w : Writer MemoryStore} (h : Following states w) (term : UInt64) :
      Following states (w.setTerm term).2
  | reopened {w w' : Writer MemoryStore} (h : Following states w) {settings : WriterSettings}
      (hopen : Writer.open w.store settings = .ok w') : Following states w'

/-- Every writer that follows its own states mirrors the last one. -/
theorem Following.mirrors (h : Following states w) (hkeyed : ∀ s ∈ states, s.metadata.Keyed)
    (hconsistent : Consistent states) : w.Mirrors states := by
  induction h with
  | @opened settings w hopen =>
    have hempty : (Writer.new .empty .empty .empty settings).Settled states :=
      ⟨.empty _, rfl, fun hdirty => by cases hdirty⟩
    exact .reopened hempty hopen
  | armed _ ha ih => exact ih.arm ha
  | flagged _ incremental ih => exact ih.setIncremental incremental
  | updated _ hnew ih =>
    exact ih.updated (hkeyed _ hnew) hnew hconsistent
      (Writer.updated ih.settled.sound.wellFormed (hkeyed _ hnew) _)
  | termSet _ term ih => exact ih.termSet (Writer.termSet ih.settled.sound.wellFormed term)
  | reopened _ hopen ih => exact .reopened ih.settled hopen

/-! ## What both cycles leave -/

variable {p : CyclePlan} {s : MemoryStore} {m : Manifest} {md : Metadata} {previous : ClusterState}

/-- What is loaded is the new state, as far as the plan has actions for its indices. -/
structure Reflects (p : CyclePlan) (new : ClusterState) (md : Metadata) : Prop where
  keyed : md.Keyed
  global : md.globalState.sameContent new.metadata.globalState = true
  index : ∀ id ∈ p.actions.map IndexAction.index,
    Metadata.SameEntry (md.index? id) (new.metadata.index? id)
  gone : ∀ id, id ∉ p.actions.map IndexAction.index → md.index? id = none

/-- A full cycle writes everything, so it leaves the new state itself. -/
theorem Leaves.eq_of_full {w : WriterState} (h : Leaves p s m new md) (hp : p.Fits w new previous)
    (hfull : w.incremental = false) :
    md.globalState = new.metadata.globalState ∧
      ∀ id ∈ p.actions.map IndexAction.index, md.index? id = new.metadata.index? id := by
  constructor
  · have hwrites : p.writesGlobal = true := by
      by_contra hfalse
      have hincremental := (hp.global (Bool.not_eq_true _ ▸ hfalse)).1
      rw [hfull] at hincremental
      cases hincremental
    rw [h.global, if_pos hwrites]
  · intro id hid
    refine h.written id ?_
    by_contra hkept
    -- Only an incremental cycle keeps a generation.
    obtain ⟨g, ha⟩ := CyclePlan.exists_keep hkept hid
    have hincremental := (hp.keep id g ha).1
    rw [hfull] at hincremental
    cases hincremental

/-- What an incremental cycle keeps is what the new state has, if the store mirrors the committed
state. -/
theorem Mirrors.reflects (h : w.Mirrors states) (hconsistent : Consistent states)
    (hnew : new ∈ states) (hp : p.Fits w.state new w.state.clusterState)
    (hleaves : Leaves p w.store w.state.manifest new md) : Reflects p new md where
  keyed := hleaves.keyed
  gone := hleaves.gone
  global := by
    rw [hleaves.global]
    cases hwrites : p.writesGlobal with
    | true => exact GlobalState.sameContent_refl _
    | false => exact GlobalState.sameContent_trans h.global (hp.global hwrites).2
  index id hid := by
    by_cases hwritten : id ∈ p.writtenIds
    · rw [hleaves.written id hwritten]
      obtain ⟨e, he⟩ := hp.exists_index? hid
      rw [he]
      exact .some (IndexMetadata.same_refl e)
    · -- The entry that is kept has the version of the new one, and versions tell entries apart.
      rw [hleaves.kept id hwritten hid]
      obtain ⟨g, ha⟩ := CyclePlan.exists_keep hwritten hid
      obtain ⟨_, hg, b, e, hb, he, hversion⟩ := hp.keep id g ha
      obtain ⟨x, hx⟩ := h.settled.recalls.holds.index id g hg
      have hentry : w.store.entryOf? w.state.manifest id = some x := by
        unfold MemoryStore.entryOf?
        rw [hg, Option.bind_some, hx]
      obtain ⟨c, hc, hce⟩ := h.settled.recalls.carries id x hentry
      have hxe := (h.version id x b hentry hb).trans hversion
      rw [hentry, he]
      exact .some (hconsistent c hc new hnew id x e hce he hxe)

theorem Mirrors.calm (h : w.Mirrors states) : w.calm.Mirrors states := by
  have hsound := h.settled.sound.calm
  refine ⟨⟨⟨hsound.wellFormed, hsound.holds, h.settled.recalls.carries,
    h.settled.recalls.distinctNames⟩, h.settled.inStep, ?_⟩, h.global, h.version⟩
  -- No failure is left to wait.
  intro hdirty
  cases hdirty

/-- An update without waiting failures: the manifest, and what is loaded under it. -/
theorem Mirrors.exists_update (h : w.Mirrors states) (hkeyed : new.metadata.Keyed)
    (hplanned : w.state.cyclePlan new w.state.clusterState = .ok p) (hunarmed : w.store.Unarmed) :
    ∃ stats w' md ws, w.update new w.state.clusterState = (.ok stats, w') ∧
      w'.store.load = .ok (w'.state.manifest, md) ∧
      p.Named w.state new ws w'.state.manifest ∧
      Leaves p w.store w.state.manifest new md := by
  have hsound := h.settled.sound
  obtain ⟨stats, w', hok⟩ := exists_update_of_unarmed hunarmed hkeyed hplanned
  obtain ⟨ws, s', m, hsucceeded⟩ := succeeded hsound.wellFormed hkeyed hplanned hok
  obtain ⟨md, hload, hleaves⟩ := hsucceeded.exists_load hsound hkeyed
    (hsucceeded.current_eq fun _ => h.settled.inStep)
  obtain rfl : w'.state.manifest = m := by rw [hsucceeded.state]
  exact ⟨stats, w', md, ws, hok, hload, hsucceeded.staged.named, hleaves⟩

/-- **Incremental and full cycles agree.** If every update was given the state that the writer last
committed as the one before, then with the flag and without it the next such update fails in its
planning with the same error, or succeeds, with the same term, version and indices in the manifest
and the same metadata behind it. -/
theorem incremental_agrees_with_full (hw : Following states w)
    (hkeyed : ∀ s ∈ states, s.metadata.Keyed) (hconsistent : Consistent states)
    (hnew : new ∈ states) :
    (∃ e, ∀ b, (w.calm.setIncremental b).update new w.state.clusterState =
      (.error (.error e), w.calm.setIncremental b)) ∨
    ∃ stats stats' w₁ w₂ md₁ md₂,
      (w.calm.setIncremental true).update new w.state.clusterState = (.ok stats, w₁) ∧
      (w.calm.setIncremental false).update new w.state.clusterState = (.ok stats', w₂) ∧
      w₁.state.manifest.currentTerm = w₂.state.manifest.currentTerm ∧
      w₁.state.manifest.clusterStateVersion = w₂.state.manifest.clusterStateVersion ∧
      w₁.state.manifest.indexGenerations.keys = w₂.state.manifest.indexGenerations.keys ∧
      w₁.store.load = .ok (w₁.state.manifest, md₁) ∧
      w₂.store.load = .ok (w₂.state.manifest, md₂) ∧ md₁.sameButVersion md₂ = true := by
  have hmirrors := (hw.mirrors hkeyed hconsistent).calm
  have hnewKeyed := hkeyed new hnew
  rcases w.state.cyclePlan_error_or_ok new w.state.clusterState with ⟨e, he⟩ | hok
  · refine .inl ⟨e, fun b => ?_⟩
    have hplan : (w.calm.setIncremental b).state.cyclePlan new w.state.clusterState = .error e :=
      he b
    simp [update, WriterState.cycle, hplan]
  · right
    obtain ⟨p₁, hp₁⟩ := hok true
    obtain ⟨p₂, hp₂⟩ := hok false
    obtain ⟨stats, w₁, md₁, ws₁, hok₁, hload₁, hnamed₁, hleaves₁⟩ :=
      (hmirrors.setIncremental true).exists_update hnewKeyed hp₁ (MemoryStore.unarmed_calm _)
    obtain ⟨stats', w₂, md₂, ws₂, hok₂, hload₂, hnamed₂, hleaves₂⟩ :=
      (hmirrors.setIncremental false).exists_update hnewKeyed hp₂ (MemoryStore.unarmed_calm _)
    have hids := WriterState.map_index_actions_eq hnewKeyed hp₁ hp₂
    refine ⟨stats, stats', w₁, w₂, md₁, md₂, hok₁, hok₂, ?_, ?_, ?_, hload₁, hload₂, ?_⟩
    · exact hnamed₁.term.trans hnamed₂.term.symm
    · exact hnamed₁.version.trans hnamed₂.version.symm
    · apply SortedMap.keys_eq_of_isSome
      intro id
      have hboth := (hnamed₁.isSome_iff id).trans (hids ▸ (hnamed₂.isSome_iff id).symm)
      exact Bool.eq_iff_iff.2 hboth
    · -- The full cycle stores the new state itself. The incremental one kept only what has its
      -- version, and states are consistent, so that it stores the same.
      have hfits₁ := WriterState.cyclePlan_fits hnewKeyed hp₁
      have hfits₂ := WriterState.cyclePlan_fits hnewKeyed hp₂
      have hreflects := (hmirrors.setIncremental true).reflects hconsistent hnew hfits₁ hleaves₁
      obtain ⟨hglobal, hindex⟩ := hleaves₂.eq_of_full hfits₂ rfl
      refine Metadata.sameButVersion_of_index? hreflects.keyed hleaves₂.keyed ?_ ?_
      · rw [hglobal]
        exact hreflects.global
      · intro id
        by_cases hid : id ∈ p₁.actions.map IndexAction.index
        · rw [hindex id (hids ▸ hid)]
          exact hreflects.index id hid
        · rw [hreflects.gone id hid, hleaves₂.gone id (hids ▸ hid)]
          exact .none

/-- A writer on a data node whose first update failed, and then committed the same state and a
term. -/
def keeping : Writer MemoryStore :=
  ((((((Writer.new .empty .empty .empty default).arm (.index "logs" .clean)).update
    (.versioned false 1) .empty).2.update (.versioned false 1) .empty).2.setTerm 3).2)

theorem following_keeping : Following [.versioned false 1] keeping := by
  have hmem : ClusterState.versioned false 1 ∈ [ClusterState.versioned false 1] :=
    List.mem_cons_self
  have hopened : Following [.versioned false 1] (Writer.new .empty .empty .empty default) :=
    .opened (w := .new .empty .empty .empty default) rfl
  have hfailed := (hopened.armed (a := .index "logs" .clean) (by decide)).updated hmem
  -- The failed update has left the state before, which is empty.
  exact (hfailed.updated hmem).termSet 3

/-- The incremental cycle keeps the one index that there is, and the full one writes it again. -/
theorem incremental_agrees_keeping :
    ∃ w₁ w₂ md₁ md₂,
      (keeping.calm.setIncremental true).update (.versioned false 1) keeping.state.clusterState =
        (.ok ⟨false, 0, 1, false⟩, w₁) ∧
      (keeping.calm.setIncremental false).update (.versioned false 1) keeping.state.clusterState =
        (.ok ⟨true, 1, 0, true⟩, w₂) ∧
      w₁.state.manifest.indexGenerations.keys = w₂.state.manifest.indexGenerations.keys ∧
      w₁.store.load = .ok (w₁.state.manifest, md₁) ∧
      w₂.store.load = .ok (w₂.state.manifest, md₂) ∧ md₁.sameButVersion md₂ = true := by
  have hkept : ((keeping.calm.setIncremental true).update (.versioned false 1)
      keeping.state.clusterState).1 = .ok ⟨false, 0, 1, false⟩ := by decide +kernel
  have hwritten : ((keeping.calm.setIncremental false).update (.versioned false 1)
      keeping.state.clusterState).1 = .ok ⟨true, 1, 0, true⟩ := by decide +kernel
  rcases incremental_agrees_with_full following_keeping (by decide +kernel) (by decide +kernel)
    List.mem_cons_self with
    ⟨e, he⟩ | ⟨stats, stats', w₁, w₂, md₁, md₂, hok₁, hok₂, _, _, hids, hload₁, hload₂, hsame⟩
  · have hfailed := congrArg Prod.fst (he true)
    rw [hkept] at hfailed
    cases hfailed
  · rw [hok₁] at hkept
    rw [hok₂] at hwritten
    obtain rfl := Except.ok.inj hkept
    obtain rfl := Except.ok.inj hwritten
    exact ⟨w₁, w₂, md₁, md₂, hok₁, hok₂, hids, hload₁, hload₂, hsame⟩

end Writer

end DurableState
