import DurableState.Proofs.Holdings
import DurableState.Proofs.LostUpdate
import DurableState.Proofs.Operations

/-!
# DurableState.Proofs.Retained — a store in memory holds exactly what is committed

As long as no manifest fails dirty, a writer neither loses what it committed nor leaves behind what
it superseded or gave up. The invariant (`Writer.Trim`) adds to a settled writer that of no unit
which its manifest covers anything else is held than the generation that the manifest falls back to
(`MemoryStore.HoldsOnly`). An index that the manifest does not name is not covered: what is left of
it is removed once the index is named again.

* `HoldsOnly.commit`, `HoldsOnly.givenUp` — one transaction, by the way in which it ends;
* `Trim.perform` — one operation of the writer;
* `retained_run` — whole runs, with failures, dropped indices and new terms.
-/

namespace DurableState

/-! ## Nothing else is held -/

/-- Of a slot that the manifest covers, nothing is held but the generation that it falls back to. -/
def MemoryStore.HoldsOnly (s : MemoryStore) (m : Manifest) : Prop :=
  ∀ u k r, m.fallback? u = some k → s.held u r = true → k = r

namespace MemoryStore.HoldsOnly

variable {s s' : MemoryStore} {m : Manifest} {ws : List (StatePart × Generation)}

theorem empty (m : Manifest) : MemoryStore.empty.HoldsOnly m := by
  intro u k r _ hheld
  cases u <;> cases hheld

/-- It depends only on which generations are held. -/
theorem of_held_eq (h : s.HoldsOnly m) (hheld : ∀ u r, s'.held u r = s.held u r) :
    s'.HoldsOnly m := by
  intro u k r hk hr
  rw [hheld] at hr
  exact h u k r hk hr

/-- Parts that were written and given up again leave nothing behind, whether or not one more part
was refused before. -/
theorem undone (h : s.HoldsOnly m) {s₁ : MemoryStore} (hwrote : Wrote s ws s₁)
    (hheld : ∀ u r, s'.held u r = s₁.held u r) {parts : List StatePart}
    (hparts : ∀ v ∈ ws, v.1 ∈ parts) :
    ((parts.flatMap fun part => part.undo m).foldl Cleanup.run s').HoldsOnly m := by
  intro u k r hk hr
  rcases Cleanup.held_undone.1 hr with ⟨hr, hundone⟩
  rw [hheld, MemoryStore.held_of_wrote hwrote] at hr
  rcases hr with hold | ⟨v, hv, hslot, _⟩
  · exact h u k r hk hold
  · -- It was written here, so the rollback has left nothing but the fallback of its slot.
    exact hundone v.1 (hparts v hv) hslot k hk

/-- Parts that were written under what the manifest covers already change nothing. -/
theorem wrote (h : s.HoldsOnly m) (hwrote : Wrote s ws s')
    (hnamed : ∀ v ∈ ws, m.fallback? v.1.slot = some v.2) : s'.HoldsOnly m := by
  intro u k r hk hr
  rcases (MemoryStore.held_of_wrote hwrote).1 hr with hold | ⟨v, hv, rfl, rfl⟩
  · exact h u k r hk hold
  · rw [hnamed v hv] at hk
    exact (Option.some.inj hk).symm

/-- Parts that were written and committed supersede what was held of their slots. -/
theorem committed {previous : Manifest} (h : s.HoldsOnly previous) {s₁ : MemoryStore}
    (hwrote : Wrote s ws s₁) (hheld : ∀ u r, s'.held u r = s₁.held u r)
    (hnamed : ∀ v ∈ ws, m.fallback? v.1.slot = some v.2)
    (hkept : ∀ u k, m.fallback? u = some k →
      previous.fallback? u = some k ∨ ∃ v ∈ ws, v.1.slot = u) :
    ((ws.map fun v => v.1.superseded v.2).foldl Cleanup.run s').HoldsOnly m := by
  intro u k r hk hr
  rcases Cleanup.held_superseded.1 hr with ⟨hr, hnew⟩
  -- A slot that was written holds its new generation, any other one what it held before.
  by_cases hwritten : ∃ v ∈ ws, v.1.slot = u
  · rcases hwritten with ⟨v, hv, rfl⟩
    rw [hnamed v hv] at hk
    exact (Option.some.inj hk).symm.trans (hnew v hv rfl)
  · rcases hkept u k hk with hprevious | hslot
    · rw [hheld, MemoryStore.held_of_wrote hwrote] at hr
      rcases hr with hold | ⟨v, hv, hslot, _⟩
      · exact h u k r hprevious hold
      · exact absurd ⟨v, hv, hslot⟩ hwritten
    · exact absurd hslot hwritten

end MemoryStore.HoldsOnly

/-- What the manifest of a plan covers was covered before or is written. -/
theorem CyclePlan.Named.fallback?_cases {w : WriterState} {new previous : ClusterState}
    {p : CyclePlan} {ws : List (StatePart × Generation)} {m : Manifest} (h : p.Named w new ws m)
    (hp : p.Fits w new previous) {u : Slot} {k : Generation} (hk : m.fallback? u = some k) :
    w.manifest.fallback? u = some k ∨ ∃ v ∈ ws, v.1.slot = u := by
  cases u with
  | global =>
    rcases h.global_cases with hkept | hwritten
    · left
      rw [← hk]
      exact congrArg some hkept.symm
    · exact .inr ⟨_, hwritten, rfl⟩
  | index id =>
    rcases h.index_cases hp hk with hkept | ⟨e, rfl, hwritten, _⟩
    · exact .inl hkept
    · exact .inr ⟨_, hwritten, rfl⟩

/-! ## Transactions -/

namespace MemoryStore.HoldsOnly

variable {s s' : MemoryStore} {w : WriterState}

/-- A cycle that is refused a part undoes that part and those before it. -/
theorem givenUp (h : s.HoldsOnly w.manifest) {parts : List StatePart} {f : Failure WriteError}
    (hend : (w.begin s).GivenUp parts f s') : s'.HoldsOnly w.manifest := by
  cases hend with
  | @refused ws part later reason e s₁ s₂ hparts hwrote hwrite =>
    have hundo : (w.begin s).onRollback ++ (ws.flatMap fun v => v.1.undo (w.begin s).previous) ++
          part.undo (w.begin s).previous =
        (ws.map Prod.fst ++ [part]).flatMap fun part => part.undo w.manifest := by
      rw [List.flatMap_append, List.flatMap_map, List.flatMap_singleton]
      rfl
    rw [hundo]
    exact h.undone hwrote (fun u r => MemoryStore.held_of_refused hwrite)
      fun v hv => List.mem_append_left _ (List.mem_map_of_mem hv)
  | @broke ws part later reason c s₁ s₂ hparts hwrote hwrite =>
    -- A store in memory keeps its contract, so this does not happen.
    obtain ⟨kind, _, hf, _⟩ := StatePart.eq_refused_of_write hwrite
    cases hf

/-- A commit supersedes what the written parts had before, a clean refusal undoes them. -/
theorem commit (h : s.HoldsOnly w.manifest) (hs : s.WellFormed)
    (hclean : s.failManifest ≠ some .dirty) {ws : List (StatePart × Generation)}
    {t : Transaction MemoryStore} (hadvanced : (w.begin s).Advanced ws t) (reason : String)
    {m : Manifest} (hnamed : ∀ v ∈ ws, m.fallback? v.1.slot = some v.2)
    (hkept : ∀ u k, m.fallback? u = some k →
      w.manifest.fallback? u = some k ∨ ∃ v ∈ ws, v.1.slot = u) :
    (∃ t', t.commit reason m = (.ok (), t') ∧ t'.store.HoldsOnly m) ∨
    (∃ f t', t.commit reason m = (.error f, t') ∧ t'.store.HoldsOnly w.manifest) := by
  have hfinished : t.finished = false := hadvanced.finished
  rw [Transaction.commit_eq hfinished]
  cases hfail : t.store.failManifest with
  | none =>
    refine .inl ⟨_, rfl, ?_⟩
    -- What the commit supersedes is queued part by part.
    have honCommit : t.onCommit = ws.map fun v => v.1.superseded v.2 := hadvanced.onCommit
    rw [honCommit]
    exact h.committed hadvanced.wrote (fun _ _ => rfl) hnamed hkept
  | some kind =>
    cases kind with
    | clean =>
      refine .inr ⟨_, _, rfl, ?_⟩
      have honRollback : t.onRollback =
          (ws.map Prod.fst).flatMap fun part => part.undo w.manifest := by
        rw [hadvanced.onRollback, List.flatMap_map]
        rfl
      show (t.onRollback.foldl Cleanup.run t.store.manifestRefused).HoldsOnly w.manifest
      rw [honRollback]
      have hheld : ∀ u r, t.store.manifestRefused.held u r = t.store.held u r := fun _ _ => rfl
      exact h.undone hadvanced.wrote hheld fun v hv => List.mem_map_of_mem hv
    | dirty =>
      have hgrown := (MemoryStore.written hs hadvanced.wrote).grown
      exact absurd (hgrown.failManifest_of_eq_some hfail) hclean

end MemoryStore.HoldsOnly

/-! ## Runs of a writer -/

namespace Writer

/-- What can happen to a writer on a store in memory. -/
inductive Event where
  | arm (a : Arming)
  | perform (op : Operation)

/-- The states that an event brings. -/
def Event.states : Event → List ClusterState
  | .perform (.update new _) => [new]
  | _ => []

def handle (w : Writer MemoryStore) : Event → Writer MemoryStore
  | .arm a => w.arm a
  | .perform op => (w.perform op).2

/-- The writer after a run. -/
def after (w : Writer MemoryStore) (events : List Event) : Writer MemoryStore :=
  events.foldl handle w

/-- A settled writer whose store holds nothing else of what its manifest covers. -/
structure Trim (states : List ClusterState) (w : Writer MemoryStore) : Prop where
  settled : w.Settled states
  only : w.store.HoldsOnly w.state.manifest

namespace Trim

variable {states : List ClusterState} {w w' : Writer MemoryStore}

theorem open_empty (states : List ClusterState) (settings : WriterSettings) :
    ∃ w, Writer.open MemoryStore.empty settings = .ok w ∧ w.Trim states := by
  refine ⟨_, rfl, ⟨.empty _, rfl, ?_⟩, .empty _⟩
  intro hdirty
  cases hdirty

/-- Armed failures change nothing that is held. -/
theorem arm (h : w.Trim states) {a : Arming} (ha : a ≠ .manifest .dirty) :
    (w.arm a).Trim states where
  settled := h.settled.arm ha
  only := h.only.of_held_eq fun u r => w.store.held_arm u r a

/-- However an update ends, nothing is left behind. -/
theorem update (h : w.Trim states) {new : ClusterState} (hkeyed : new.metadata.Keyed)
    (hnew : new ∈ states) (previous : ClusterState) : (w.update new previous).2.Trim states := by
  have hs := h.settled.sound.wellFormed
  refine ⟨h.settled.updated hkeyed hnew (w.updated hs hkeyed previous), ?_⟩
  -- The cases are the ways in which the transaction of the cycle can end.
  unfold Writer.update WriterState.cycle
  cases hplanned : w.state.cyclePlan new previous with
  | error e => exact h.only
  | ok p =>
    have hp := WriterState.cyclePlan_fits hkeyed hplanned
    dsimp only
    unfold WriterState.carryOut
    rcases w.state.stage_traffic w.store hp with
      ⟨ws, m, t, hstage, hadvanced, hnamed⟩ | ⟨f, t, hstage, hend⟩
    · rw [hstage]
      have hcovered : ∀ v ∈ ws, m.fallback? v.1.slot = some v.2 := by
        intro v hv
        exact hnamed.fallback?_eq hp hv
      unfold WriterState.commitIfChanged
      by_cases hm : m = w.state.manifest
      · -- No manifest is written, so nothing is removed either: nothing new may be there.
        subst hm
        simp only [↓reduceIte]
        exact h.only.wrote hadvanced.wrote hcovered
      · simp only [if_neg hm]
        rcases h.only.commit hs h.settled.unarmed hadvanced "changed" hcovered
          (fun u k hk => hnamed.fallback?_cases hp hk) with
          ⟨t', hcommit, honly⟩ | ⟨e, t', hcommit, honly⟩
        · rw [hcommit]
          exact honly
        · rw [hcommit]
          exact honly
    · rw [hstage]
      exact h.only.givenUp hend

theorem setTerm (h : w.Trim states) (term : UInt64) : (w.setTerm term).2.Trim states := by
  have hs := h.settled.sound.wellFormed
  refine ⟨h.settled.termSet (w.termSet hs term), ?_⟩
  unfold Writer.setTerm
  dsimp only
  -- A term is a transaction without parts, and does not change what the manifest covers.
  rcases h.only.commit hs h.settled.unarmed (.refl _) "current term changed"
    (m := w.state.manifest.withTerm term) (by simp) (by
      intro u k hk
      left
      cases u <;> exact hk) with ⟨t', hcommit, honly⟩ | ⟨e, t', hcommit, honly⟩
  · rw [hcommit]
    exact honly
  · rw [hcommit]
    exact honly

/-- Opening goes on from the manifest that the writer before had. -/
theorem reopen (h : w.Trim states) {settings : WriterSettings}
    (hopen : Writer.open w.store settings = .ok w') : w'.Trim states := by
  rcases open_eq_ok_iff.1 hopen with ⟨m, md, hload, rfl⟩
  rcases h.settled.exists_load with ⟨md', hwriter, _⟩
  rw [hwriter] at hload
  rcases Prod.mk.inj (Except.ok.inj hload) with ⟨rfl, rfl⟩
  exact ⟨⟨h.settled.recalls, h.settled.inStep, h.settled.unarmed⟩, h.only⟩

/-- No operation leaves anything behind. -/
theorem perform (h : w.Trim states) {op : Operation}
    (hkeyed : ∀ new ∈ (Event.perform op).states, new.metadata.Keyed ∧ new ∈ states) :
    (w.perform op).2.Trim states := by
  cases op with
  | update new previous =>
    rcases hkeyed new (List.mem_singleton_self new) with ⟨hkeyed, hnew⟩
    exact h.update hkeyed hnew previous
  | setTerm term =>
    rw [perform_setTerm]
    exact h.setTerm term
  | setIncremental incremental => exact ⟨h.settled.setIncremental incremental, h.only⟩
  | reopen settings =>
    unfold Writer.perform
    dsimp only
    split
    next w' hopen => exact h.reopen hopen
    next => exact h

theorem after (h : w.Trim states) {events : List Event}
    (harmed : ∀ a, Event.arm a ∈ events → a ≠ .manifest .dirty)
    (hkeyed : ∀ new ∈ events.flatMap Event.states, new.metadata.Keyed ∧ new ∈ states) :
    (w.after events).Trim states := by
  -- The states of the whole run are fixed; only the writer moves.
  induction events generalizing w with
  | nil => exact h
  | cons event events ih =>
    have hstep : (w.handle event).Trim states := by
      cases event with
      | arm a => exact h.arm (harmed a List.mem_cons_self)
      | perform op =>
        exact h.perform fun new hnew => hkeyed new (List.mem_append_left _ hnew)
    refine ih hstep (fun a ha => harmed a (List.mem_cons_of_mem _ ha)) ?_
    intro new hnew
    exact hkeyed new (List.mem_append_right _ hnew)

/-! ## What is listed -/

theorem manifest_cases (h : w.Trim states) :
    w.store.manifest = some w.state.manifest ∨
      (w.store.manifest = none ∧ w.state.manifest = .empty) := by
  have hstep : w.store.manifest.getD .empty = w.state.manifest := h.settled.inStep
  cases hstored : w.store.manifest with
  | none =>
    rw [hstored] at hstep
    exact .inr ⟨rfl, hstep.symm⟩
  | some m =>
    rw [hstored] at hstep
    exact .inl (congrArg some hstep)

/-- The generations of the global part that are listed. -/
theorem globalGenerations_eq (h : w.Trim states) :
    w.store.globalGenerations =
      if w.state.manifest.isGlobalMissing then [] else [w.state.manifest.globalGeneration] := by
  have honly : ∀ g, w.store.held .global g = true → w.state.manifest.globalGeneration = g :=
    fun g hg => h.only .global _ g rfl hg
  unfold MemoryStore.globalGenerations
  by_cases hmissing : w.state.manifest.isGlobalMissing = true
  · -- No generation is the missing one.
    rw [if_pos hmissing]
    apply List.eq_nil_iff_forall_not_mem.2
    intro g hg
    have hheld : w.store.held .global g = true :=
      Option.isSome_iff_exists.2 (SortedMap.mem_keys_iff.1 hg)
    apply h.settled.sound.wellFormed.ne_missing hheld
    rw [← honly g hheld]
    exact Manifest.isGlobalMissing_iff.1 hmissing
  · rw [if_neg hmissing]
    rcases h.settled.recalls.holds.global (mt Manifest.isGlobalMissing_iff.2 hmissing) with
      ⟨x, hx⟩
    refine SortedMap.keys_eq_singleton hx ?_
    intro g hne
    by_contra hsome
    exact hne (honly g (Option.isSome_iff_ne_none.2 hsome)).symm

theorem indexGenerations_eq (h : w.Trim states) {id : IndexId} {g : Generation}
    (hg : w.state.manifest.indexGeneration? id = some g) :
    w.store.indexGenerations id = [g] := by
  rcases h.settled.recalls.holds.index id g hg with ⟨e, he⟩
  rcases Option.bind_eq_some_iff.1 he with ⟨generations, hgenerations, hget⟩
  unfold MemoryStore.indexGenerations
  rw [hgenerations]
  -- The manifest's generation is held, and any other one that were held would be the same.
  refine SortedMap.keys_eq_singleton hget ?_
  intro r hne
  by_contra hsome
  have hheld : w.store.held (.index id) r = true := by
    show ((w.store.indices.get? id).bind _).isSome = true
    rw [hgenerations]
    exact Option.isSome_iff_ne_none.2 hsome
  exact hne (h.only (.index id) g r hg hheld).symm

end Trim

/-- **Exactly the committed generations are held.** After every run from an empty store in which no
manifest fails dirty, whatever else fails, the store has the manifest of the writer, or none as long
as the writer has committed nothing. Of the global part it holds the one generation that this
manifest names, or none, and of every index that it names the one generation with it. So it can be
loaded. -/
theorem retained_run {settings : WriterSettings} {events : List Event}
    (harmed : ∀ a, Event.arm a ∈ events → a ≠ .manifest .dirty)
    (hkeyed : ∀ new ∈ events.flatMap Event.states, new.metadata.Keyed) :
    ∃ w₀ w, Writer.open MemoryStore.empty settings = .ok w₀ ∧ w₀.after events = w ∧
      (w.store.manifest = some w.state.manifest ∨
        (w.store.manifest = none ∧ w.state.manifest = .empty)) ∧
      w.store.globalGenerations =
        (if w.state.manifest.isGlobalMissing then [] else [w.state.manifest.globalGeneration]) ∧
      (∀ e ∈ w.state.manifest.indexGenerations.entries, w.store.indexGenerations e.1 = [e.2]) ∧
      ∃ md, w.store.load = .ok (w.state.manifest, md) := by
  rcases Trim.open_empty (events.flatMap Event.states) settings with ⟨w₀, hopen, hstart⟩
  have h := hstart.after harmed fun new hnew => ⟨hkeyed new hnew, hnew⟩
  rcases h.settled.exists_load with ⟨md, hload, _⟩
  refine ⟨w₀, _, hopen, rfl, h.manifest_cases, h.globalGenerations_eq, ?_, md, hload⟩
  rintro ⟨id, g⟩ he
  exact h.indexGenerations_eq (SortedMap.get?_eq_some_iff.2 he)

/-- The first writes fail one after the other. Later the index is dropped, its return fails once,
and the last update writes everything again. -/
def restlessRun : List Event :=
  [.arm (.global .clean), .perform (.update (.versioned true 1) .empty),
    .arm (.index "logs" .dirty), .perform (.update (.versioned true 1) .empty),
    .arm (.manifest .clean), .perform (.update (.versioned true 1) .empty),
    .perform (.update (.versioned true 1) .empty), .perform (.setTerm 3),
    .perform (.update { ClusterState.versioned true 2 with metadata := .empty }
      (.versioned true 1)),
    .arm (.index "logs" .clean), .perform (.update (.versioned true 3) .empty),
    .perform (.update (.versioned true 3) .empty), .perform (.reopen default),
    .perform (.setIncremental false),
    .perform (.update (.versioned true 3) (.versioned true 3))]

/-- Of all that was written, the seventh generation of the global part and the fourth one of the
index are left. -/
theorem retained_restlessRun :
    ∃ w₀ w, Writer.open MemoryStore.empty default = .ok w₀ ∧ w₀.after restlessRun = w ∧
      w.state.manifest.currentTerm = 3 ∧ w.store.globalGenerations = [7] ∧
      w.store.indexGenerations ⟨"logs", "u1"⟩ = [4] := by
  have harmed : ∀ a, Event.arm a ∈ restlessRun → a ≠ .manifest .dirty := by
    intro a ha
    simp only [restlessRun, List.mem_cons, Event.arm.injEq, reduceCtorEq, List.not_mem_nil,
      false_or, or_false] at ha
    rcases ha with rfl | rfl | rfl | rfl <;> decide
  rcases retained_run harmed (by decide +kernel) with
    ⟨w₀, w, hopen, hrun, _, hglobal, hindex, _⟩
  obtain rfl : Writer.new MemoryStore.empty .empty .empty default = w₀ := Except.ok.inj hopen
  subst hrun
  refine ⟨_, _, hopen, rfl, by decide +kernel, ?_, hindex (⟨"logs", "u1"⟩, 4) (by decide +kernel)⟩
  rw [hglobal]
  decide +kernel

end Writer

end DurableState
