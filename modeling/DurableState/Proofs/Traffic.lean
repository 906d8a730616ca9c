import DurableState.Proofs.Planning
import DurableState.Proofs.Units

/-!
# DurableState.Proofs.Traffic — what a cycle asks of any store

Up to its manifest a cycle writes the parts of its plan one after the other (`CyclePlan.parts`), and
queues for each of them what its new generation supersedes and what is to be removed if the cycle is
given up. Whatever the store, there are two ways to get through (`stage_traffic`): every part is
written, and the manifest names the generations that came back, or one part is refused after the
ones before it, and what was written is undone.
-/

namespace DurableState

/-! ## The parts of a plan -/

/-- The parts that actions write, in order. -/
def StatePart.ofActions (actions : List IndexAction) : List StatePart :=
  (actions.filterMap IndexAction.entry?).map .index

/-- The parts that a plan writes, in order. -/
def CyclePlan.parts (p : CyclePlan) (new : ClusterState) : List StatePart :=
  (if p.writesGlobal then [.global new.metadata] else []) ++ StatePart.ofActions p.actions

namespace Transaction

variable {σ : Type} [Store σ]

/-! ## Transactions that go on -/

/-- A transaction after some parts were written. -/
structure Advanced (t : Transaction σ) (ws : List (StatePart × Generation)) (t' : Transaction σ) :
    Prop where
  wrote : Wrote t.store ws t'.store
  previous : t'.previous = t.previous
  finished : t'.finished = t.finished
  onCommit : t'.onCommit = t.onCommit ++ ws.map fun w => w.1.superseded w.2
  onRollback : t'.onRollback = t.onRollback ++ ws.flatMap fun w => w.1.undo t.previous

theorem Advanced.refl (t : Transaction σ) : t.Advanced [] t :=
  ⟨.nil _, rfl, rfl, by simp, by simp⟩

theorem Advanced.trans {t t₁ t₂ : Transaction σ} {ws vs : List (StatePart × Generation)}
    (h : t.Advanced ws t₁) (h' : t₁.Advanced vs t₂) : t.Advanced (ws ++ vs) t₂ where
  wrote := h.wrote.append h'.wrote
  previous := h'.previous.trans h.previous
  finished := h'.finished.trans h.finished
  onCommit := by
    rw [h'.onCommit, h.onCommit, List.map_append, List.append_assoc]
  onRollback := by
    rw [h'.onRollback, h.onRollback, h.previous, List.flatMap_append, List.append_assoc]

/-- How a transaction ends that was to write some parts and was refused one of them: what it made is
removed, unless a contract broke. -/
inductive GivenUp (t : Transaction σ) (parts : List StatePart) : Failure WriteError → σ → Prop
  | refused (ws : List (StatePart × Generation)) {part : StatePart} (later : List StatePart)
      {reason : String} {e : WriteError} {s₁ s₂ : σ}
      (hparts : parts = ws.map Prod.fst ++ part :: later)
      (wrote : Wrote t.store ws s₁) (hwrite : part.write s₁ reason = (.error (.error e), s₂)) :
      GivenUp t parts (.error e)
        ((t.onRollback ++ (ws.flatMap fun w => w.1.undo t.previous) ++
          part.undo t.previous).foldl Cleanup.run s₂)
  | broke (ws : List (StatePart × Generation)) {part : StatePart} (later : List StatePart)
      {reason : String} {c : Crash} {s₁ s₂ : σ}
      (hparts : parts = ws.map Prod.fst ++ part :: later)
      (wrote : Wrote t.store ws s₁) (hwrite : part.write s₁ reason = (.error (.crash c), s₂)) :
      GivenUp t parts (.crash c) s₂

/-- Parts written before the refused one do not change how the transaction ends. -/
theorem GivenUp.after {t t₁ : Transaction σ} {vs : List (StatePart × Generation)}
    (h : t.Advanced vs t₁) {parts : List StatePart} {f : Failure WriteError} {s : σ}
    (hend : t₁.GivenUp parts f s) : t.GivenUp (vs.map Prod.fst ++ parts) f s := by
  cases hend with
  | @refused ws part later reason e s₁ s₂ hparts wrote hwrite =>
    -- What was queued by the parts written before stands in front of what is queued here.
    have hcleanups : t₁.onRollback ++ (ws.flatMap fun w => w.1.undo t₁.previous) ++
        part.undo t₁.previous = t.onRollback ++ ((vs ++ ws).flatMap fun w => w.1.undo t.previous) ++
        part.undo t.previous := by
      rw [h.onRollback, h.previous, List.flatMap_append, List.append_assoc t.onRollback]
    rw [hcleanups]
    refine .refused (vs ++ ws) later ?_ (h.wrote.append wrote) hwrite
    rw [hparts, List.map_append, List.append_assoc]
  | @broke ws part later reason c s₁ s₂ hparts wrote hwrite =>
    refine .broke (vs ++ ws) later ?_ (h.wrote.append wrote) hwrite
    rw [hparts, List.map_append, List.append_assoc]

/-- Parts that were to come later do not change it either. -/
theorem GivenUp.mono {t : Transaction σ} {parts : List StatePart} {f : Failure WriteError} {s : σ}
    (h : t.GivenUp parts f s) (more : List StatePart) : t.GivenUp (parts ++ more) f s := by
  cases h with
  | @refused ws part later reason e s₁ s₂ hparts wrote hwrite =>
    refine .refused ws (later ++ more) ?_ wrote hwrite
    rw [hparts, List.append_assoc, List.cons_append]
  | @broke ws part later reason c s₁ s₂ hparts wrote hwrite =>
    refine .broke ws (later ++ more) ?_ wrote hwrite
    rw [hparts, List.append_assoc, List.cons_append]

/-! ## One part -/

/-- Writes a part. -/
def writePart (t : Transaction σ) (reason : String) : StatePart → Outcome σ Generation
  | .global m => t.writeGlobal reason m
  | .index e => t.writeIndex reason e

/-- The transaction behind a part that was written. -/
def taken (t : Transaction σ) (part : StatePart) (g : Generation) (s : σ) : Transaction σ :=
  { t with
    store := s
    onCommit := t.onCommit ++ [part.superseded g]
    onRollback := t.onRollback ++ part.undo t.previous
    indicesWritten := t.indicesWritten + part.indexCount }

/-- The transaction behind a part that was not written. -/
def missed (t : Transaction σ) (part : StatePart) (s : σ) : Transaction σ :=
  { t with store := s, onRollback := t.onRollback ++ part.undo t.previous }

/-- What is queued for a part depends on the part alone, and a refusal gives the transaction up. -/
theorem writePart_eq {t : Transaction σ} (ht : t.finished = false) (reason : String)
    (part : StatePart) :
    t.writePart reason part =
      match part.write t.store reason with
      | (.ok g, s) => (.ok g, t.taken part g s)
      | (.error (.error e), s) => (.error (.error e), (t.missed part s).rollback)
      | (.error (.crash c), s) => (.error (.crash c), t.missed part s) := by
  rcases t with ⟨s, previous, onCommit, onRollback, finished, written, skipped⟩
  obtain rfl : finished = false := ht
  -- The two kinds of part are written by the same steps: only the call and what is queued differ.
  cases part with
  | global m =>
    simp only [writePart, writeGlobal, Bool.false_eq_true, ↓reduceIte, StatePart.write]
    rcases Store.writeGlobal s reason m with ⟨(e | c) | g, s'⟩ <;> rfl
  | index e =>
    simp only [writePart, writeIndex, Bool.false_eq_true, ↓reduceIte, StatePart.write]
    rcases Store.writeIndex s reason e with ⟨(e | c) | g, s'⟩ <;> rfl

/-- A part is written, or the transaction ends. -/
theorem writePart_traffic {t : Transaction σ} (ht : t.finished = false) (reason : String)
    (part : StatePart) :
    (∃ g t', t.writePart reason part = (.ok g, t') ∧ t.Advanced [(part, g)] t') ∨
    (∃ f t', t.writePart reason part = (.error f, t') ∧ t.GivenUp [part] f t'.store) := by
  rw [writePart_eq ht]
  rcases hwrite : part.write t.store reason with ⟨(e | c) | g, s'⟩
  · -- Refused: everything that is queued for it is undone, this part included.
    have hend : t.GivenUp [part] (.error e) _ := .refused [] [] rfl (.nil _) hwrite
    exact .inr ⟨_, _, rfl, by simpa [rollback, missed] using hend⟩
  · exact .inr ⟨_, _, rfl, .broke [] [] rfl (.nil _) hwrite⟩
  · have hwrote : Wrote t.store [(part, g)] s' := .cons hwrite (.nil _)
    exact .inl ⟨g, _, rfl, hwrote, rfl, rfl, rfl, by simp [taken]⟩

/-! ## The actions of a plan -/

/-- The generations give the index of an action what the action says: what it keeps, or what its
entry was written under. -/
def Assigns (generations : SortedMap IndexId Generation) (ws : List (StatePart × Generation)) :
    IndexAction → Prop
  | .keep id g => generations.get? id = some g
  | .create e | .update _ e => ∃ g, (.index e, g) ∈ ws ∧ generations.get? e.index = some g

/-- For an action that writes it is the generation of its entry. -/
theorem assigns_iff_of_writes {generations : SortedMap IndexId Generation}
    {ws : List (StatePart × Generation)} {a : IndexAction} {e : IndexMetadata}
    (he : a.entry? = some e) :
    Assigns generations ws a ↔ ∃ g, (.index e, g) ∈ ws ∧ generations.get? e.index = some g := by
  cases a with
  | keep id g => cases he
  | create x =>
    obtain rfl := Option.some.inj he
    rfl
  | update old x =>
    obtain rfl := Option.some.inj he
    rfl

/-- An action still has what it says if its index keeps its generation, whatever else is written. -/
theorem Assigns.mono {generations generations' : SortedMap IndexId Generation}
    {ws ws' : List (StatePart × Generation)} {a : IndexAction} (h : Assigns generations ws a)
    (hws : ws ⊆ ws')
    (hsame : generations'.get? a.index = generations.get? a.index) :
    Assigns generations' ws' a := by
  cases a with
  | keep id g => exact hsame.trans h
  | create e =>
    obtain ⟨g, hg, hget⟩ := h
    exact ⟨g, hws hg, hsame.trans hget⟩
  | update old e =>
    obtain ⟨g, hg, hget⟩ := h
    exact ⟨g, hws hg, hsame.trans hget⟩

/-- Every action gives its index a generation. -/
theorem Assigns.isSome {generations : SortedMap IndexId Generation}
    {ws : List (StatePart × Generation)} {a : IndexAction} (h : Assigns generations ws a) :
    ∃ g, generations.get? a.index = some g := by
  cases a with
  | keep id g => exact ⟨g, h⟩
  | create e => exact h.imp fun _ hg => hg.2
  | update old e => exact h.imp fun _ hg => hg.2

/-- An action that writes is the write of a part, whatever the store. -/
theorem execute_eq_writePart {a : IndexAction} {e : IndexMetadata} (he : a.entry? = some e) :
    ∃ reason, ∀ {τ : Type} [Store τ] (t : Transaction τ),
      t.execute a = t.writePart reason (.index e) := by
  cases a with
  | keep id g => cases he
  | create x =>
    obtain rfl := Option.some.inj he
    exact ⟨_, fun _ => rfl⟩
  | update old x =>
    obtain rfl := Option.some.inj he
    exact ⟨_, fun _ => rfl⟩

/-- An action gives its index a generation, or the transaction ends. -/
theorem execute_traffic {t : Transaction σ} (ht : t.finished = false) {a : IndexAction}
    (ha : ∀ e, a.entry? = some e → a.index = e.index) :
    (∃ g ws t', t.execute a = (.ok g, t') ∧ t.Advanced ws t' ∧
      ws.map Prod.fst = StatePart.ofActions [a] ∧
      ∀ generations : SortedMap IndexId Generation,
        Assigns (generations.insert a.index g) ws a) ∨
    (∃ f t', t.execute a = (.error f, t') ∧ t.GivenUp (StatePart.ofActions [a]) f t'.store) := by
  cases hentry : a.entry? with
  | none =>
    -- Only an action that keeps its generation writes nothing.
    cases a with
    | keep id g =>
      refine .inl ⟨g, [], t.skipIndex, rfl, ⟨.nil _, rfl, rfl, by simp [skipIndex],
        by simp [skipIndex]⟩, rfl, ?_⟩
      exact fun generations => SortedMap.get?_insert_self _ _ _
    | create e => cases hentry
    | update old e => cases hentry
  | some e =>
    obtain ⟨reason, heq⟩ := execute_eq_writePart hentry
    have hparts : StatePart.ofActions [a] = [.index e] := by simp [StatePart.ofActions, hentry]
    rw [heq, hparts]
    rcases writePart_traffic ht reason (.index e) with ⟨g, t', hok, hadvanced⟩ | hend
    · refine .inl ⟨g, _, t', hok, hadvanced, rfl, ?_⟩
      intro generations
      rw [assigns_iff_of_writes hentry, ha e hentry]
      exact ⟨g, List.mem_singleton_self _, SortedMap.get?_insert_self _ _ _⟩
    · exact .inr hend

/-- All actions are carried out and every index of them has its generation, or the transaction
ends. -/
theorem executeAll_traffic {t : Transaction σ} (ht : t.finished = false)
    {actions : List IndexAction}
    (hactions : ∀ a ∈ actions, ∀ e, a.entry? = some e → a.index = e.index)
    (hnodup : (actions.map IndexAction.index).Nodup)
    (generations : SortedMap IndexId Generation) :
    (∃ generations' ws t', t.executeAll actions generations = (.ok generations', t') ∧
      t.Advanced ws t' ∧ ws.map Prod.fst = StatePart.ofActions actions ∧
      (∀ id, id ∉ actions.map IndexAction.index → generations'.get? id = generations.get? id) ∧
      ∀ a ∈ actions, Assigns generations' ws a) ∨
    (∃ f t', t.executeAll actions generations = (.error f, t') ∧
      t.GivenUp (StatePart.ofActions actions) f t'.store) := by
  -- By induction on the actions. The generations of later ones go into a map that has those of
  -- earlier ones, so it is said too what is left of the map.
  induction actions generalizing t generations with
  | nil =>
    refine .inl ⟨generations, [], t, rfl, .refl t, rfl, fun _ _ => rfl, ?_⟩
    intro a ha
    cases ha
  | cons a actions ih =>
    obtain ⟨ha, hrest⟩ := List.forall_mem_cons.1 hactions
    rw [List.map_cons] at hnodup ⊢
    obtain ⟨hnew, hnodup⟩ := List.nodup_cons.1 hnodup
    have hparts : StatePart.ofActions (a :: actions) =
        StatePart.ofActions [a] ++ StatePart.ofActions actions := by
      cases hentry : a.entry? <;> simp [StatePart.ofActions, hentry]
    rw [hparts]
    unfold executeAll
    rcases execute_traffic ht ha with
      ⟨g, ws, t₁, hok, hadvanced, hws, hassigns⟩ | ⟨f, t', hfail, hend⟩
    · rw [hok]
      dsimp only
      rcases ih (hadvanced.finished.trans ht) hrest hnodup (generations.insert a.index g) with
        ⟨generations', vs, t', hok', hadvanced', hvs, hothers, hall⟩ | ⟨f, t', hfail, hend⟩
      · -- The indices are all different, so the first one keeps the generation that it got.
        have hfirst : generations'.get? a.index = (generations.insert a.index g).get? a.index :=
          hothers _ hnew
        refine .inl ⟨generations', ws ++ vs, t', hok', hadvanced.trans hadvanced', ?_, ?_, ?_⟩
        · rw [List.map_append, hws, hvs]
        · intro id hid
          rw [List.mem_cons, not_or] at hid
          rw [hothers id hid.2, SortedMap.get?_insert_of_ne _ _ hid.1]
        · refine List.forall_mem_cons.2 ⟨?_, ?_⟩
          · exact (hassigns generations).mono (List.subset_append_left _ _) hfirst
          · intro b hb
            exact (hall b hb).mono (List.subset_append_right _ _) rfl
      · -- One of the rest is refused, and what the first one wrote is undone with it.
        refine .inr ⟨f, t', hfail, ?_⟩
        rw [← hws]
        exact hend.after hadvanced
    · rw [hfail]
      exact .inr ⟨f, t', rfl, hend.mono _⟩

end Transaction

/-! ## A whole cycle up to its manifest -/

/-- A manifest that names for every slot of a plan what the plan keeps or what was written. -/
structure CyclePlan.Named (w : WriterState) (new : ClusterState) (p : CyclePlan)
    (ws : List (StatePart × Generation)) (m : Manifest) : Prop where
  parts : ws.map Prod.fst = p.parts new
  term : m.currentTerm = w.manifest.currentTerm
  version : m.clusterStateVersion = new.version
  written : p.writesGlobal = true → (.global new.metadata, m.globalGeneration) ∈ ws
  kept : p.writesGlobal = false → m.globalGeneration = w.manifest.globalGeneration
  assigns : ∀ a ∈ p.actions, Transaction.Assigns m.indexGenerations ws a
  named : ∀ id g, m.indexGeneration? id = some g → id ∈ p.actions.map IndexAction.index

theorem CyclePlan.Named.mem_parts {w : WriterState} {new : ClusterState} {p : CyclePlan}
    {ws : List (StatePart × Generation)} {m : Manifest} (h : p.Named w new ws m)
    {x : StatePart × Generation} (hx : x ∈ ws) : x.1 ∈ p.parts new := by
  rw [← h.parts]
  exact List.mem_map_of_mem hx

/-- An index is named if and only if it has an action. -/
theorem CyclePlan.Named.isSome_iff {w : WriterState} {new : ClusterState} {p : CyclePlan}
    {ws : List (StatePart × Generation)} {m : Manifest} (h : p.Named w new ws m) (id : IndexId) :
    (m.indexGeneration? id).isSome = true ↔ id ∈ p.actions.map IndexAction.index := by
  rw [Option.isSome_iff_exists]
  constructor
  · rintro ⟨g, hg⟩
    exact h.named id g hg
  · intro hid
    obtain ⟨a, ha, rfl⟩ := List.mem_map.1 hid
    exact (h.assigns a ha).isSome

/-- The generation of an index is one that its action keeps, or the one that the entry of its action
was written under. -/
theorem CyclePlan.Named.action_cases {w : WriterState} {new previous : ClusterState} {p : CyclePlan}
    {ws : List (StatePart × Generation)} {m : Manifest} (h : p.Named w new ws m)
    (hp : p.Fits w new previous) {id : IndexId} {g : Generation}
    (hg : m.indexGeneration? id = some g) :
    .keep id g ∈ p.actions ∨
      ∃ a ∈ p.actions, ∃ e, a.entry? = some e ∧ e.index = id ∧ (.index e, g) ∈ ws := by
  obtain ⟨a, ha, rfl⟩ := List.mem_map.1 (h.named id g hg)
  have hassigns := h.assigns a ha
  cases hentry : a.entry? with
  | none =>
    -- Only an action that keeps its generation writes nothing.
    cases a with
    | keep id r =>
      have hsame : some g = some r := hg.symm.trans hassigns
      rw [Option.some.inj hsame]
      exact .inl ha
    | create e => cases hentry
    | update old e => cases hentry
  | some e =>
    have hindex := (hp.write a ha e hentry).1
    obtain ⟨r, hr, hget⟩ := (Transaction.assigns_iff_of_writes hentry).1 hassigns
    rw [hindex] at hg ⊢
    have hsame : some g = some r := hg.symm.trans hget
    rw [Option.some.inj hsame]
    exact .inr ⟨a, ha, e, hentry, rfl, hr⟩

/-- So it is that of the manifest before, or the one that the entry in the new state was written
under. -/
theorem CyclePlan.Named.index_cases {w : WriterState} {new previous : ClusterState} {p : CyclePlan}
    {ws : List (StatePart × Generation)} {m : Manifest} (h : p.Named w new ws m)
    (hp : p.Fits w new previous) {id : IndexId} {g : Generation}
    (hg : m.indexGeneration? id = some g) :
    w.manifest.indexGeneration? id = some g ∨
      ∃ e : IndexMetadata, e.index = id ∧ (.index e, g) ∈ ws ∧ new.metadata.index? id = some e := by
  rcases h.action_cases hp hg with hkept | ⟨a, ha, e, hentry, rfl, hwritten⟩
  · exact .inl (hp.keep id g hkept).2.1
  · exact .inr ⟨e, rfl, hwritten, (hp.write a ha e hentry).2.1⟩

/-- The generation of the global part is that of the manifest before, or the one that it was written
under. -/
theorem CyclePlan.Named.global_cases {w : WriterState} {new : ClusterState} {p : CyclePlan}
    {ws : List (StatePart × Generation)} {m : Manifest} (h : p.Named w new ws m) :
    m.globalGeneration = w.manifest.globalGeneration ∨
      (.global new.metadata, m.globalGeneration) ∈ ws := by
  cases hwrites : p.writesGlobal with
  | false => exact .inl (h.kept hwrites)
  | true => exact .inr (h.written hwrites)

/-- The entries that a plan writes are those of different indices. -/
theorem CyclePlan.Fits.entries_pairwise {w : WriterState} {new previous : ClusterState}
    {p : CyclePlan} (h : p.Fits w new previous) :
    (p.actions.filterMap IndexAction.entry?).Pairwise fun x y => x.index ≠ y.index := by
  rw [List.pairwise_filterMap]
  refine (List.pairwise_map.1 h.nodup).imp_of_mem ?_
  -- The index of an action is that of its entry, and no two actions have one index.
  intro a b ha hb hne x hx y hy heq
  rw [(h.write a ha x hx).1, (h.write b hb y hy).1, heq] at hne
  exact hne rfl

/-- No part is written twice. -/
theorem CyclePlan.Fits.parts_nodup {w : WriterState} {new previous : ClusterState} {p : CyclePlan}
    (h : p.Fits w new previous) : (p.parts new).Nodup := by
  have hentries : (p.actions.filterMap IndexAction.entry?).Nodup :=
    h.entries_pairwise.imp fun hne heq => hne (congrArg IndexMetadata.index heq)
  refine List.nodup_append.2 ⟨?_, ?_, ?_⟩
  · split <;> simp
  · exact hentries.map fun x y heq => StatePart.index.inj heq
  · -- The global part is no index.
    intro x hx y hy heq
    subst heq
    obtain ⟨e, _, rfl⟩ := List.mem_map.1 hy
    split at hx
    · cases List.mem_singleton.1 hx
    · cases hx

/-- A part that is written is named with the generation that it got. -/
theorem CyclePlan.Named.fallback?_eq {w : WriterState} {new previous : ClusterState} {p : CyclePlan}
    {ws : List (StatePart × Generation)} {m : Manifest} (h : p.Named w new ws m)
    (hp : p.Fits w new previous) {part : StatePart} {g : Generation} (hmem : (part, g) ∈ ws) :
    m.fallback? part.slot = some g := by
  have hnodup := hp.parts_nodup
  rw [← h.parts] at hnodup
  -- A part is written once, so there is one generation to be named.
  have hunique : ∀ r, (part, r) ∈ ws → g = r := by
    intro r hr
    exact congrArg Prod.snd (List.inj_on_of_nodup_map hnodup hmem hr rfl)
  have hpart : part ∈ p.parts new := h.mem_parts hmem
  rcases List.mem_append.1 hpart with hglobal | hindex
  · split at hglobal
    next hwrites =>
      obtain rfl := List.mem_singleton.1 hglobal
      exact congrArg some (hunique _ (h.written hwrites)).symm
    next => cases hglobal
  · obtain ⟨e, he, rfl⟩ := List.mem_map.1 hindex
    -- An action that writes gives its index what its entry was written under.
    obtain ⟨a, ha, hentry⟩ := List.mem_filterMap.1 he
    obtain ⟨r, hr, hget⟩ := (Transaction.assigns_iff_of_writes hentry).1 (h.assigns a ha)
    obtain rfl := hunique r hr
    exact hget

namespace WriterState

variable {σ : Type} [Store σ]

/-- What a cycle has queued for its commit keeps what its manifest names. -/
theorem spares_onCommit {w : WriterState} {s : σ} {t : Transaction σ} {new previous : ClusterState}
    {p : CyclePlan} {ws : List (StatePart × Generation)} {m : Manifest}
    (h : (w.begin s).Advanced ws t) (hnamed : p.Named w new ws m) (hp : p.Fits w new previous) :
    ∀ c ∈ t.onCommit, c.Spares m := by
  intro c hc
  rw [h.onCommit] at hc
  obtain ⟨x, hx, rfl⟩ := List.mem_map.1 hc
  exact StatePart.spares_superseded_iff.2 (hnamed.fallback?_eq hp hx)

/-- What a cycle has queued to be undone keeps what the manifest before names. -/
theorem spares_onRollback {w : WriterState} {s : σ} {t : Transaction σ}
    {ws : List (StatePart × Generation)} (h : (w.begin s).Advanced ws t) :
    ∀ c ∈ t.onRollback, c.Spares w.manifest := by
  rw [h.onRollback]
  exact StatePart.spares_flatMap_undo ws w.manifest

/-- The global part is written if the plan says so, or keeps its generation, or the cycle ends. -/
theorem writeGlobalPart_traffic (w : WriterState) (s : σ) (p : CyclePlan) (m : Metadata) :
    (∃ g ws t, w.writeGlobalPart (w.begin s) p m = (.ok g, t) ∧ (w.begin s).Advanced ws t ∧
      ws.map Prod.fst = (if p.writesGlobal then [.global m] else []) ∧
      (p.writesGlobal = true → (.global m, g) ∈ ws) ∧
      (p.writesGlobal = false → g = w.manifest.globalGeneration)) ∨
    (∃ f t, w.writeGlobalPart (w.begin s) p m = (.error f, t) ∧
      (w.begin s).GivenUp (if p.writesGlobal then [.global m] else []) f t.store) := by
  unfold writeGlobalPart
  cases p.writesGlobal with
  | false => exact .inl ⟨_, [], _, rfl, .refl _, rfl, by simp, fun _ => rfl⟩
  | true =>
    rcases Transaction.writePart_traffic (t := w.begin s) rfl "changed" (.global m) with
      ⟨g, t, hok, hadvanced⟩ | hend
    · exact .inl ⟨g, _, t, hok, hadvanced, rfl, fun _ => List.mem_singleton_self _, by simp⟩
    · exact .inr hend

/-- Every part of a plan is written, or one is refused and the cycle is given up. -/
theorem stage_traffic (w : WriterState) (s : σ) {p : CyclePlan} {new previous : ClusterState}
    (hp : p.Fits w new previous) :
    (∃ ws m t, w.stage s p new = (.ok m, t) ∧ (w.begin s).Advanced ws t ∧ p.Named w new ws m) ∨
    (∃ f t, w.stage s p new = (.error f, t) ∧ (w.begin s).GivenUp (p.parts new) f t.store) := by
  unfold stage
  -- The global part goes first, and the actions follow in the same transaction.
  rcases w.writeGlobalPart_traffic s p new.metadata with
    ⟨g, ws, t₁, hok, hadvanced, hws, hwritten, hkept⟩ | ⟨f, t, hfail, hend⟩
  · rw [hok]
    dsimp only
    have hactions : ∀ a ∈ p.actions, ∀ e, a.entry? = some e → a.index = e.index := by
      intro a ha e he
      exact (hp.write a ha e he).1
    rcases Transaction.executeAll_traffic hadvanced.finished hactions hp.nodup ∅ with
      ⟨generations, vs, t, hok', hadvanced', hvs, hothers, hall⟩ | ⟨f, t, hfail, hend⟩
    · rw [hok']
      refine .inl ⟨ws ++ vs, _, t, rfl, hadvanced.trans hadvanced', ?_⟩
      refine ⟨?_, rfl, rfl, ?_, hkept, ?_, ?_⟩
      · rw [List.map_append, hws, hvs]
        rfl
      · intro hwrites
        exact List.mem_append_left _ (hwritten hwrites)
      · intro a ha
        exact (hall a ha).mono (List.subset_append_right _ _) rfl
      · -- The map was empty at first, so only indices of the plan have a generation in it.
        intro id r hr
        by_contra hid
        have hnone : generations.get? id = none := hothers id hid
        have hr : generations.get? id = some r := hr
        rw [hnone] at hr
        cases hr
    · rw [hfail]
      refine .inr ⟨f, t, rfl, ?_⟩
      have hend := hend.after hadvanced
      rw [hws] at hend
      exact hend
  · rw [hfail]
    exact .inr ⟨f, t, rfl, hend.mono _⟩

end WriterState

end DurableState
