import DurableState.Proofs.Traffic

/-!
# DurableState.Proofs.Lockstep — one cycle on two stores

If one store follows another part by part (`Follows`), it follows it through a whole cycle up to the
manifest: the same generations come back, so the manifests are the same, and so are the cleanups
that are queued and the counts of what was written and left out (`stage_follows`).
-/

namespace DurableState

variable {σ τ : Type} [Store σ] [Store τ]

/-- Whatever the first of two related stores takes of some parts, the second takes with the same
answer, and they are related then. -/
def Follows (R : σ → τ → Prop) (P : StatePart → Prop) : Prop :=
  ∀ s t part reason g s', R s t → P part → part.write s reason = (.ok g, s') →
    ∃ t', part.write t reason = (.ok g, t') ∧ R s' t'

namespace Transaction

/-- The same transaction on another store. -/
def on (t : Transaction σ) (s : τ) : Transaction τ :=
  ⟨s, t.previous, t.onCommit, t.onRollback, t.finished, t.indicesWritten, t.indicesSkipped⟩

variable {R : σ → τ → Prop} {P : StatePart → Prop} {t t' : Transaction σ} {s : τ}

/-- A part that the first store takes is taken by the second, under the same generation. -/
theorem writePart_follows (h : Follows R P) (hs : R t.store s) (part : StatePart) (hpart : P part)
    {reason : String} {g : Generation} (hok : t.writePart reason part = (.ok g, t')) :
    ∃ s', (t.on s).writePart reason part = (.ok g, t'.on s') ∧ R t'.store s' := by
  cases hfinished : t.finished with
  | true => cases part <;> simp [writePart, writeGlobal, writeIndex, hfinished] at hok
  | false =>
    have hfinished' : (t.on s).finished = false := hfinished
    rw [writePart_eq hfinished] at hok
    rw [writePart_eq hfinished']
    rcases hwrite : part.write t.store reason with ⟨(e | c) | r, s₁⟩
    · simp [hwrite] at hok
    · simp [hwrite] at hok
    · rw [hwrite] at hok
      obtain ⟨hr, rfl⟩ := Prod.mk.inj hok
      obtain rfl := Except.ok.inj hr
      obtain ⟨s', hwrite', hs'⟩ := h _ _ _ _ _ _ hs hpart hwrite
      have hwrite' : part.write (t.on s).store reason = (.ok r, s') := hwrite'
      rw [hwrite']
      exact ⟨s', rfl, hs'⟩

/-- An action goes the same way, whether it writes or keeps. -/
theorem execute_follows (h : Follows R P) (hs : R t.store s) {a : IndexAction}
    (ha : ∀ e, a.entry? = some e → P (.index e)) {g : Generation}
    (hok : t.execute a = (.ok g, t')) :
    ∃ s', (t.on s).execute a = (.ok g, t'.on s') ∧ R t'.store s' := by
  cases hentry : a.entry? with
  | none =>
    cases a with
    | keep id r =>
      -- Nothing is asked of a store.
      obtain ⟨rfl, rfl⟩ : r = g ∧ t.skipIndex = t' := by simpa [execute] using hok
      exact ⟨s, rfl, hs⟩
    | create e => cases hentry
    | update old e => cases hentry
  | some e =>
    obtain ⟨reason, heq⟩ := execute_eq_writePart hentry
    rw [heq] at hok ⊢
    exact writePart_follows h hs (.index e) (ha e hentry) hok

/-- So do the actions of a plan, one after the other. -/
theorem executeAll_follows (h : Follows R P) (hs : R t.store s) {actions : List IndexAction}
    (hactions : ∀ a ∈ actions, ∀ e, a.entry? = some e → P (.index e))
    {generations generations' : SortedMap IndexId Generation}
    (hok : t.executeAll actions generations = (.ok generations', t')) :
    ∃ s', (t.on s).executeAll actions generations = (.ok generations', t'.on s') ∧
      R t'.store s' := by
  -- By induction on the actions: behind each the stores are related again.
  induction actions generalizing t s generations with
  | nil =>
    obtain ⟨rfl, rfl⟩ : generations = generations' ∧ t = t' := by simpa [executeAll] using hok
    exact ⟨s, rfl, hs⟩
  | cons a actions ih =>
    obtain ⟨ha, hrest⟩ := List.forall_mem_cons.1 hactions
    rw [executeAll] at hok ⊢
    rcases hfirst : t.execute a with ⟨_ | g, t₁⟩
    · simp [hfirst] at hok
    · rw [hfirst] at hok
      obtain ⟨s₁, hfirst', hs₁⟩ := execute_follows h hs ha hfirst
      rw [hfirst']
      exact ih hs₁ hrest hok

end Transaction

namespace WriterState

variable {R : σ → τ → Prop} {P : StatePart → Prop}

theorem writeGlobalPart_follows (h : Follows R P) (w : WriterState) {t t' : Transaction σ} {s : τ}
    (hs : R t.store s) {p : CyclePlan} {m : Metadata}
    (hglobal : p.writesGlobal = true → P (.global m)) {g : Generation}
    (hok : w.writeGlobalPart t p m = (.ok g, t')) :
    ∃ s', w.writeGlobalPart (t.on s) p m = (.ok g, t'.on s') ∧ R t'.store s' := by
  unfold writeGlobalPart at hok ⊢
  cases hwrites : p.writesGlobal with
  | false =>
    rw [hwrites] at hok
    obtain ⟨rfl, rfl⟩ : w.manifest.globalGeneration = g ∧ t = t' := by simpa using hok
    exact ⟨s, rfl, hs⟩
  | true =>
    rw [hwrites] at hok
    exact Transaction.writePart_follows h hs (.global m) (hglobal hwrites) hok

/-- A cycle up to its manifest goes the same way on a store that follows. -/
theorem stage_follows (h : Follows R P) (w : WriterState) {s : σ} {s₂ : τ} (hs : R s s₂)
    {p : CyclePlan} {new : ClusterState} (hparts : ∀ part ∈ p.parts new, P part) {m : Manifest}
    {t : Transaction σ} (hok : w.stage s p new = (.ok m, t)) :
    ∃ s₂', w.stage s₂ p new = (.ok m, t.on s₂') ∧ R t.store s₂' := by
  -- The parts of the plan are the global part and the entries of its actions.
  have hglobal : p.writesGlobal = true → P (.global new.metadata) := by
    intro hwrites
    apply hparts
    simp [CyclePlan.parts, hwrites]
  have hactions : ∀ a ∈ p.actions, ∀ e, a.entry? = some e → P (.index e) := by
    intro a ha e he
    apply hparts
    refine List.mem_append_right _ (List.mem_map_of_mem ?_)
    exact List.mem_filterMap.2 ⟨a, ha, he⟩
  unfold stage at hok ⊢
  rcases hfirst : w.writeGlobalPart (w.begin s) p new.metadata with ⟨_ | g, t₁⟩
  · simp [hfirst] at hok
  · obtain ⟨s₁, hfirst', hs₁⟩ := w.writeGlobalPart_follows h hs hglobal hfirst
    have hfirst' : w.writeGlobalPart (w.begin s₂) p new.metadata = (.ok g, t₁.on s₁) := hfirst'
    rw [hfirst] at hok
    rw [hfirst']
    dsimp only at hok ⊢
    rcases hrest : t₁.executeAll p.actions ∅ with ⟨_ | generations, t₂⟩
    · simp [hrest] at hok
    · obtain ⟨s', hrest', hs'⟩ := Transaction.executeAll_follows h hs₁ hactions hrest
      rw [hrest] at hok
      rw [hrest']
      obtain ⟨hm, rfl⟩ := Prod.mk.inj hok
      obtain rfl := Except.ok.inj hm
      exact ⟨s', rfl, hs'⟩

end WriterState

end DurableState
