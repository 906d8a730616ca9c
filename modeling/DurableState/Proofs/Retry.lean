import DurableState.Proofs.Atomicity
import DurableState.Proofs.Success

/-!
# DurableState.Proofs.Retry — an update that is tried until it succeeds

A failed update leaves the writer as it was, and of the store at least what the writer's manifest
names. So however often an update fails, the attempt that succeeds has the same plan before it, and
finds under the generations that it keeps what the first attempt would have found there. The
generations that it writes may be others; all else is as if the first attempt had succeeded
(`retried_update_converges`). Even a manifest that failed dirty leaves no trace, as the one that is
written in the end takes its place.
-/

namespace DurableState

open MemoryStore (Extends injected)

/-! ## Manifests of one plan -/

namespace CyclePlan

/-- Two manifests that agree but for the generations of what a plan writes. -/
structure Agrees (p : CyclePlan) (m m' : Manifest) : Prop where
  term : m'.currentTerm = m.currentTerm
  version : m'.clusterStateVersion = m.clusterStateVersion
  ids : m'.indexGenerations.keys = m.indexGenerations.keys
  global : p.writesGlobal = false → m'.globalGeneration = m.globalGeneration
  index : ∀ id, id ∉ p.writtenIds → m'.indexGeneration? id = m.indexGeneration? id

/-- If the plan writes nothing, all its manifests are the same. -/
theorem Agrees.eq {p : CyclePlan} {m m' : Manifest} (h : p.Agrees m m')
    (hglobal : p.writesGlobal = false) (hids : p.writtenIds = []) : m' = m := by
  have hgenerations : m'.indexGenerations = m.indexGenerations := by
    apply SortedMap.ext_get?
    intro id
    refine h.index id ?_
    rw [hids]
    simp
  have hterm := h.term
  have hversion := h.version
  have hglobal := h.global hglobal
  cases m
  cases m'
  simp_all

namespace Named

variable {w : WriterState} {new : ClusterState} {p : CyclePlan}
  {ws ws' : List (StatePart × Generation)} {m m' : Manifest}

/-- Whatever generations the parts of a plan get, the manifest is the same but for these. -/
theorem agrees (h : p.Named w new ws m) (h' : p.Named w new ws' m') : p.Agrees m m' where
  term := h'.term.trans h.term.symm
  version := h'.version.trans h.version.symm
  ids := by
    apply SortedMap.keys_eq_of_isSome
    intro id
    have hboth := (h'.isSome_iff id).trans (h.isSome_iff id).symm
    exact Bool.eq_iff_iff.2 hboth
  global hfalse := (h'.kept hfalse).trans (h.kept hfalse).symm
  index id hid := by
    -- An index that is not written is kept by the plan or not in it.
    by_cases hnamed : id ∈ p.actions.map IndexAction.index
    · obtain ⟨g, ha⟩ := exists_keep hid hnamed
      exact (h'.assigns _ ha).trans (h.assigns _ ha).symm
    · rw [(h.not_isSome_iff id).2 hnamed, (h'.not_isSome_iff id).2 hnamed]

end Named

end CyclePlan

/-! ## Failed attempts -/

namespace Writer

variable {w w' : Writer MemoryStore} {new previous : ClusterState} {p : CyclePlan}

/-- The writers that failed attempts of an update lead to, with whatever failures armed before and
between them. -/
inductive Retried (new previous : ClusterState) (w : Writer MemoryStore) :
    Writer MemoryStore → Prop
  | start : Retried new previous w w
  | armed {w' : Writer MemoryStore} (h : Retried new previous w w') (a : Arming) :
      Retried new previous w (w'.arm a)
  | failed {w' w'' : Writer MemoryStore} {f : Failure Error} (h : Retried new previous w w')
      (hfail : w'.update new previous = (.error f, w'')) : Retried new previous w w''

/-- What failed attempts leave: the writer holds what it held, and so does its store under what the
writer's manifest names. The store has that manifest too, unless one was staged that differs. -/
structure Spared (new previous : ClusterState) (p : CyclePlan) (w w' : Writer MemoryStore) :
    Prop where
  state : w'.state = w.state
  sound : w'.Sound
  keeps : w.store.Keeps w'.store w.state.manifest
  inStep : w'.InStep ∨ ∃ ws m, p.Named w.state new ws m ∧ m ≠ w.state.manifest

/-- A failed attempt spares what the writer holds. -/
theorem Spared.failed (h : w.Spared new previous p w') (hnew : new.metadata.Keyed)
    (hplanned : w.state.cyclePlan new previous = .ok p) {f : Failure Error}
    {w'' : Writer MemoryStore} (hfail : w'.update new previous = (.error f, w'')) :
    w.Spared new previous p w'' := by
  have hr := Writer.updated h.sound.wellFormed hnew previous
  rw [hfail] at hr
  have hsound := h.sound.updated hr
  cases hr with
  | unplanned hplan =>
    rw [h.state, hplanned] at hplan
    cases hplan
  | @givenUp e s' cs hne grown spares =>
    have hunchanged := h.sound.unchanged_givenUp grown spares
    have hkeeps := hunchanged.keeps
    rw [h.state] at hkeeps
    exact ⟨h.state, hsound, h.keeps.trans hkeeps, h.inStep.imp (hunchanged.current.trans ·) id⟩
  | @torn p' ws t m armed ready =>
    have hp := ready.staged.planned
    rw [h.state, hplanned] at hp
    obtain rfl := Except.ok.inj hp
    have hkeeps := (ready.staged.grown.keeps h.sound.holds).trans
      (t.store.keeps_withManifest m (.failedWrite .manifest .dirty) _)
    rw [h.state] at hkeeps
    -- The manifest that failed is one that the plan leads to, and not the writer's.
    have hnamed := ready.staged.named
    have hchanged := ready.changed
    rw [h.state] at hnamed hchanged
    exact ⟨h.state, hsound, h.keeps.trans hkeeps, .inr ⟨ws, m, hnamed, hchanged⟩⟩

/-- So do any number of them. -/
theorem Retried.spared (h : Retried new previous w w') (hsound : w.Sound) (hstep : w.InStep)
    (hnew : new.metadata.Keyed) (hplanned : w.state.cyclePlan new previous = .ok p) :
    w.Spared new previous p w' := by
  induction h with
  | start => exact ⟨rfl, hsound, ⟨fun _ => rfl, fun _ _ _ => rfl⟩, .inl hstep⟩
  | @armed w' _ a ih =>
    exact ⟨ih.state, ih.sound.arm a, ih.keeps.trans (MemoryStore.keeps_arm a _),
      ih.inStep.imp ((MemoryStore.current_arm a).trans ·) id⟩
  | failed _ hfail ih => exact ih.failed hnew hplanned hfail

/-! ## The attempt that succeeds -/

variable {ws : List (StatePart × Generation)} {s' : MemoryStore} {m : Manifest}

/-- What a sound writer's manifest names was handed out before, so a part that is written now gets
another generation, and the new manifest differs. -/
theorem Succeeded.changed (h : w.Succeeded new previous p ws s' m w') (hsound : w.Sound)
    (hwrites : p.writesGlobal = true ∨ p.writtenIds ≠ []) : m ≠ w.state.manifest := by
  -- Some part was written, the global one or that of an index.
  have hws : ws ≠ [] := by
    rcases hwrites with hwrites | hwrites
    · exact List.ne_nil_of_mem (h.staged.named.written hwrites)
    · obtain ⟨id, hid⟩ := List.exists_mem_of_ne_nil _ hwrites
      obtain ⟨_, _, _, hmem, _⟩ := h.staged.named.exists_written hid
      exact List.ne_nil_of_mem hmem
  obtain ⟨⟨part, g⟩, hmem⟩ := List.exists_mem_of_ne_nil _ hws
  -- If the manifest were the same, it would name what was not handed out yet.
  rintro rfl
  have hnamed := Manifest.generation?_of_fallback? (h.staged.named.fallback?_eq h.staged.fits hmem)
    (h.staged.written.ne_missing hmem)
  obtain ⟨x, hx⟩ := MemoryStore.held_iff.1 (MemoryStore.holds_iff.1 hsound.holds _ _ hnamed)
  have hlt := (hsound.wellFormed.lt_next _ _ x hx).2
  exact Nat.not_le_of_lt hlt (h.staged.written.fresh _ hmem)

/-- Every part that the plan writes is held in one generation alone, the one that the manifest
names. -/
structure HeldOnce (p : CyclePlan) (w : Writer MemoryStore) : Prop where
  global : p.writesGlobal = true →
    w.store.globalGenerations = [w.state.manifest.globalGeneration]
  index : ∀ id ∈ p.writtenIds, ∃ g, w.state.manifest.indexGeneration? id = some g ∧
    w.store.indexGenerations id = [g]

/-- After a success, of all that was written one generation is held. -/
theorem Succeeded.heldOnce (h : w.Succeeded new previous p ws s' m w') (hsound : w.Sound) :
    HeldOnce p w' := by
  have hkeeps := h.keeps
  have hmanifest : w'.state.manifest = m := by rw [h.state]
  -- As something was written the manifest is committed, and with it all cleanups are carried out.
  have hcommitted : p.writesGlobal = true ∨ p.writtenIds ≠ [] →
      w'.store = (ws.map fun v => v.1.superseded v.2).foldl Cleanup.run
        (s'.withManifest m (.writeManifest m)) := by
    intro hwrites
    rcases h.store with ⟨hm, _⟩ | ⟨_, hstore⟩
    · exact absurd hm (h.changed hsound hwrites)
    · exact hstore
  refine ⟨?_, ?_⟩
  · intro hwrites
    rw [hmanifest]
    have hmem := h.staged.named.written hwrites
    have hheld : w'.store.global.get? m.globalGeneration = some new.metadata.globalState := by
      rw [hkeeps.global (h.staged.global_written hwrites).1]
      exact h.staged.written.held _ hmem
    refine SortedMap.keys_eq_singleton hheld ?_
    intro g hg
    rw [hcommitted (.inl hwrites)]
    exact Cleanup.slotAt?_foldl_run_of_mem (u := .global) (List.mem_map_of_mem hmem) rfl
      (Ne.symm hg)
  · intro id hid
    obtain ⟨e, g, rfl, hmem, hget, _⟩ := h.staged.named.exists_written hid
    rw [hmanifest]
    refine ⟨g, hget, ?_⟩
    have hheld : w'.store.indexAt? e.index g = some e := by
      rw [hkeeps.index _ _ hget]
      exact h.staged.written.held _ hmem
    have hothers : ∀ r, r ≠ g → w'.store.indexAt? e.index r = none := by
      intro r hr
      rw [hcommitted (.inr (List.ne_nil_of_mem hid))]
      exact Cleanup.slotAt?_foldl_run_of_mem (u := .index e.index) (List.mem_map_of_mem hmem) rfl
        (Ne.symm hr)
    unfold MemoryStore.indexAt? at hheld hothers
    unfold MemoryStore.indexGenerations
    cases hindex : w'.store.indices.get? e.index with
    | none => simp [hindex] at hheld
    | some held =>
      rw [hindex, Option.bind_some] at hheld
      refine SortedMap.keys_eq_singleton hheld ?_
      intro r hr
      have hnone := hothers r hr
      rwa [hindex, Option.bind_some] at hnone

/-- A plan leaves the same in two stores that agree on what the manifest before names. -/
theorem Leaves.eq {s s' : MemoryStore} {before : Manifest} {md md' : Metadata}
    (h : Leaves p s before new md) (h' : Leaves p s' before new md') (hkeeps : s.Keeps s' before) :
    md' = md := by
  refine h'.keyed.eq_of_index? h.keyed ?_ ?_
  · rw [h'.global, h.global, hkeeps.globalOf_eq]
  · intro id
    -- What the plan writes is the new state, what it keeps was the same in both stores.
    by_cases hid : id ∈ p.writtenIds
    · rw [h'.written id hid, h.written id hid]
    · by_cases hnamed : id ∈ p.actions.map IndexAction.index
      · rw [h'.kept id hid hnamed, h.kept id hid hnamed, hkeeps.entryOf?_eq]
      · rw [h'.gone id hnamed, h.gone id hnamed]

/-- **An update that is tried until it succeeds ends as one that succeeds at once.** After any
number of failed attempts, whatever failed in them, a successful one leaves the metadata that the
first would have left without failures, under a manifest that differs at most in the generations of
what the plan writes. Of these no other generation is held. -/
theorem retried_update_converges (hw : Reachable false w) (hnew : new.metadata.Keyed)
    (hplanned : w.state.cyclePlan new previous = .ok p) {w₁ : Writer MemoryStore}
    (hretried : Retried new previous w w₁) {stats : WriteStats}
    (hok : w₁.update new previous = (.ok stats, w')) :
    ∃ stats₀ w₀ md, w.calm.update new previous = (.ok stats₀, w₀) ∧
      w₀.store.load = .ok (w₀.state.manifest, md) ∧ w'.store.load = .ok (w'.state.manifest, md) ∧
      p.Agrees w₀.state.manifest w'.state.manifest ∧ HeldOnce p w₀ ∧ HeldOnce p w' := by
  obtain ⟨hsound, hstep⟩ := hw.sound
  have hstep := hstep rfl
  -- The attempt without failures, from the start.
  obtain ⟨stats₀, w₀, hok₀⟩ := exists_update_of_unarmed (MemoryStore.unarmed_calm _) hnew
    (w := w.calm) hplanned
  obtain ⟨ws₀, s₀, m₀, h₀⟩ := succeeded hsound.calm.wellFormed hnew (w := w.calm) hplanned hok₀
  -- The attempt that succeeds after the failed ones, with the same plan.
  have hspared := hretried.spared hsound hstep hnew hplanned
  have hplanned₁ : w₁.state.cyclePlan new previous = .ok p := by rw [hspared.state, hplanned]
  obtain ⟨ws, s', m, h⟩ := succeeded hspared.sound.wellFormed hnew hplanned₁ hok
  have hnamed := h.staged.named
  rw [hspared.state] at hnamed
  have hagrees := h₀.staged.named.agrees hnamed
  have hcurrent₀ : w₀.store.current = m₀ := h₀.current_eq fun _ => hstep
  have hcurrent : w'.store.current = m := by
    refine h.current_eq ?_
    intro hm
    rw [hspared.state] at hm
    rcases hspared.inStep with hstep | ⟨vs, k, hk, hne⟩
    · exact hstep
    · -- Nothing is written if the manifest stays, so no attempt can have staged another one.
      have hquiet : ¬ (p.writesGlobal = true ∨ p.writtenIds ≠ []) := by
        intro hwrites
        have hchanged := h.changed hspared.sound hwrites
        rw [hspared.state] at hchanged
        exact hchanged hm
      rw [not_or, Bool.not_eq_true, ne_eq, not_not] at hquiet
      have hsame := (hnamed.agrees hk).eq hquiet.1 hquiet.2
      exact absurd (hsame.trans hm) hne
  obtain ⟨md₀, hload₀, hleaves₀⟩ := h₀.exists_load hsound.calm hnew hcurrent₀
  obtain ⟨md, hload, hleaves⟩ := h.exists_load hspared.sound hnew hcurrent
  rw [hspared.state] at hleaves
  obtain rfl : md = md₀ := hleaves₀.eq hleaves ⟨hspared.keeps.global, hspared.keeps.index⟩
  have hmanifest₀ : w₀.state.manifest = m₀ := by rw [h₀.state]
  have hmanifest : w'.state.manifest = m := by rw [h.state]
  refine ⟨stats₀, w₀, md, hok₀, ?_, ?_, ?_, h₀.heldOnce hsound.calm, h.heldOnce hspared.sound⟩
  · rw [hmanifest₀]
    exact hload₀
  · rw [hmanifest]
    exact hload
  · rw [hmanifest₀, hmanifest]
    exact hagrees

/-- The writer after two failed attempts: the manifest of the first failed dirty, and the index of
the second, whose rollback removed what that manifest names. -/
def twiceFailed : Writer MemoryStore :=
  (((tearing.update (.versioned true 2) (.versioned true 1)).2.arm (.index "logs" .clean)).update
    (.versioned true 2) (.versioned true 1)).2

theorem retried_twiceFailed :
    Retried (.versioned true 2) (.versioned true 1) tearing twiceFailed := by
  have hfirst : (tearing.update (.versioned true 2) (.versioned true 1)).1 =
      .error (.error (.write (injected .manifest .dirty))) := by decide +kernel
  have hsecond : (((tearing.update (.versioned true 2) (.versioned true 1)).2.arm
      (.index "logs" .clean)).update (.versioned true 2) (.versioned true 1)).1 =
      .error (.error (.write (injected (.index ⟨"logs", "u1"⟩) .clean))) := by decide +kernel
  have hafter := Retried.start.failed (Prod.ext hfirst rfl)
  exact (hafter.armed (.index "logs" .clean)).failed (Prod.ext hsecond rfl)

theorem retried_update_twiceFailed :
    twiceFailed.store.load.isOk = false ∧
      ∃ p stats w' stats₀ w₀ md,
        tearing.state.cyclePlan (.versioned true 2) (.versioned true 1) = .ok p ∧
        twiceFailed.update (.versioned true 2) (.versioned true 1) = (.ok stats, w') ∧
        tearing.calm.update (.versioned true 2) (.versioned true 1) = (.ok stats₀, w₀) ∧
        w₀.store.load = .ok (w₀.state.manifest, md) ∧
        w'.store.load = .ok (w'.state.manifest, md) ∧
        p.Agrees w₀.state.manifest w'.state.manifest ∧ HeldOnce p w₀ ∧ HeldOnce p w' := by
  have hkeyed : (ClusterState.versioned true 2).metadata.Keyed := by decide +kernel
  have hplans : (tearing.state.cyclePlan (.versioned true 2) (.versioned true 1)).isOk = true := by
    decide +kernel
  have hok : (twiceFailed.update (.versioned true 2) (.versioned true 1)).1 =
      .ok ⟨true, 1, 0, true⟩ := by decide +kernel
  cases hplanned : tearing.state.cyclePlan (.versioned true 2) (.versioned true 1) with
  | error e =>
    rw [hplanned] at hplans
    cases hplans
  | ok p =>
    obtain ⟨stats₀, w₀, md, hends⟩ := retried_update_converges reachable_tearing hkeyed hplanned
      retried_twiceFailed (Prod.ext hok rfl)
    exact ⟨by decide +kernel, p, _, _, stats₀, w₀, md, rfl, Prod.ext hok rfl, hends⟩

end Writer

end DurableState
