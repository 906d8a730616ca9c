import DurableState.Proofs.Operations

/-!
# DurableState.Proofs.Crash — crashes of a writer of files

A crash in an operation leaves the disk after some first steps of the operation (`Writer.crash`).
Whatever operations and crashes came before (`Reached`), there is one step of an operation such that
a crash before it leaves the state as it was and a crash behind it leaves the state that the
operation leads to (`crash_atomic`). So at no time is there a mixture of the two, nor a manifest
that names what is missing or cannot be read.

A cleanup removes files in the order in which the directory is listed, which is the order of their
names here and any order on a real disk. The result does not hang on it. No file that is removed is
named by the manifest in place, so each removal leaves what is loaded, and so do any of them in any
order: `StandsBy.ran` asks of every effect that it spares the manifest, and nothing of their order.
-/

namespace DurableState

/-! ## Cuts -/

/-- The files that the steps of a course move are those of the generations that it adds. -/
theorem Course.map_target? {dataDir : Path} {base : Location} {d d' : Disk} {es : List Effect}
    (h : Course dataDir base d es d') :
    (d.stepsTo d').map DiskStep.target? = es.map (Effect.target? base) := by
  have hsteps : ∃ steps, d' = d.takeAll steps ∧
      steps.map DiskStep.target? = es.map (Effect.target? base) := by
    -- By induction on the course, step by step: each moves a file exactly if it adds a generation.
    induction h with
    | nil d => exact ⟨[], rfl, rfl⟩
    | @cons d d' step e es tidy acts moves _ ih =>
      obtain ⟨steps, hend, htargets⟩ := ih
      refine ⟨step :: steps, hend, ?_⟩
      rw [List.map_cons, List.map_cons, moves, htargets]
  obtain ⟨steps, rfl, htargets⟩ := hsteps
  rw [Disk.stepsTo_takeAll]
  exact htargets

namespace FileStore

variable {known : IndexId → Prop} {base : Location} {s s' s₁ : FileStore} {m m' : Manifest}
  {n n' : Option Generation} {es fs : List Effect}

/-- The store after the first steps of those that led to another one. -/
def cut (s s' : FileStore) (i : Nat) : FileStore :=
  { s with disk := s.disk.takeAll ((s.disk.stepsTo s'.disk).take i) }

namespace Ran

theorem cut (h : s.Ran base es s') (i : Nat) : s.Ran base (es.take i) (s.cut s' i) := by
  obtain ⟨steps, _, hend, hcourse⟩ := h.course.exists_steps
  unfold FileStore.cut
  rw [hend, Disk.stepsTo_takeAll]
  exact .of_course (hcourse i)

/-- A cut in the first of two runs. -/
theorem cut_of_le (h : s.Ran base es s₁) (h' : s₁.Ran base fs s') {i : Nat}
    (hi : i ≤ es.length) : s.cut s' i = s.cut s₁ i := by
  obtain ⟨steps, hlength, hend, _⟩ := h.course.exists_steps
  obtain ⟨steps', _, hend', _⟩ := h'.course.exists_steps
  unfold FileStore.cut
  rw [hend', hend, ← Disk.takeAll_append, Disk.stepsTo_takeAll, Disk.stepsTo_takeAll,
    List.take_append_of_le_length (hlength ▸ hi)]

/-- A cut in the second of two runs. -/
theorem cut_of_ge (h : s.Ran base es s₁) (h' : s₁.Ran base fs s') (j : Nat) :
    s.cut s' (es.length + j) = s₁.cut s' j := by
  -- A run takes one step for each effect, so the cut is so many steps into the second run.
  obtain ⟨steps, hlength, hend, _⟩ := h.course.exists_steps
  obtain ⟨steps', _, hend', _⟩ := h'.course.exists_steps
  unfold FileStore.cut
  rw [hend', Disk.stepsTo_takeAll, hend, ← Disk.takeAll_append, Disk.stepsTo_takeAll, ← hlength,
    List.take_length_add_append, Disk.takeAll_append, h.same, hend]

theorem cut_length (h : s.Ran base es s') : s.cut s' (s.disk.stepsTo s'.disk).length = s' := by
  obtain ⟨steps, _, hend, _⟩ := h.course.exists_steps
  unfold FileStore.cut
  rw [List.take_length, hend, Disk.stepsTo_takeAll, ← hend]
  exact h.same.symm

end Ran

/-! ## Cuts between two manifests -/

/-- A store that stands by the same manifest as another one, with the same metadata. -/
structure Keeps (known : IndexId → Prop) (base : Location) (s : FileStore) (m : Manifest)
    (n : Option Generation) (s' : FileStore) : Prop where
  standsBy : s'.StandsBy known base m n
  same : (s'.contents base).loaded m = (s.contents base).loaded m

theorem Keeps.load_eq (h : s.Keeps known base m n s') (hs : s.StandsBy known base m n) :
    s'.load = s.load := by
  rw [load_eq_of_stands h.standsBy.tidy h.standsBy.stands, load_eq_of_stands hs.tidy hs.stands,
    h.same]

theorem Keeps.of_same {t : FileStore} (h : s.Keeps known base m n t)
    (h' : s.Keeps known base m n s') : s'.Keeps known base m n t :=
  ⟨h.standsBy, h.same.trans h'.same.symm⟩

theorem StandsBy.keeps (hs : s.StandsBy known base m n) (h : s.Ran base es s')
    (hes : ∀ e ∈ es, e.Spares m n) : s.Keeps known base m n s' :=
  ⟨hs.ran h hes, (h.stands hes hs.stands).2⟩

/-- On the way from one manifest to the next, up to one step the first one is kept, and from that
step on the next one. -/
theorem Advances.exists_commit (h : Advances base s m n s' m' n') (hs : s.StandsBy known base m n)
    (hrange : m'.InRange) (hnamed : m'.NamesOnly known) :
    ∃ k, ∀ i, (i < k → s.Keeps known base m n (s.cut s' i)) ∧
      (k ≤ i → s'.Keeps known base m' n' (s.cut s' i)) := by
  have htake : ∀ {fs : List Effect} {m : Manifest} {n : Option Generation},
      (∀ e ∈ fs, e.Spares m n) → ∀ i, ∀ e ∈ fs.take i, e.Spares m n :=
    fun hfs i e he => hfs e (List.mem_of_mem_take he)
  cases h with
  | stays ran hes =>
    -- No manifest is written, so every cut is on the side of the end.
    refine ⟨0, fun i => ⟨fun hi => absurd hi (Nat.not_lt_zero i), fun _ => ?_⟩⟩
    exact (hs.keeps (ran.cut i) (htake hes i)).of_same (hs.keeps ran hes)
  | @commits es fs s₁ s₂ s' m' g ran hes commit stands rest hfs =>
    have hmiddle : s₂.StandsBy known base m' (some g) :=
      ⟨commit.isTidy (ran.isTidy hs.tidy), stands, hrange, hnamed⟩
    refine ⟨es.length + 1, ?_⟩
    intro i
    constructor
    · -- Before the new manifest is in place.
      intro hi
      rw [ran.cut_of_le (commit.append rest) (Nat.le_of_lt_succ hi)]
      exact hs.keeps (ran.cut i) (htake hes i)
    · -- The new manifest is in place, and some of what it supersedes is removed.
      intro hi
      obtain ⟨j, rfl⟩ := Nat.exists_eq_add_of_le hi
      have hcut := (ran.append commit).cut_of_ge rest j
      rw [List.length_append, List.length_singleton] at hcut
      rw [hcut]
      exact (hmiddle.keeps (rest.cut j) (htake hfs j)).of_same (hmiddle.keeps rest hfs)

end FileStore

/-! ## Crashes -/

namespace Writer

/-- The steps that an operation takes on the disk. -/
def steps (w : Writer FileStore) (op : Operation) : List DiskStep :=
  w.store.disk.stepsTo (w.perform op).2.store.disk

/-- What a crash in an operation leaves: the disk after its first steps. -/
def crash (w : Writer FileStore) (op : Operation) (i : Nat) : FileStore :=
  { w.store with disk := w.store.disk.takeAll ((w.steps op).take i) }

/-- The writers that can be reached from an empty directory by operations at any times, and by
opening what a crash in an operation left. -/
inductive Reached (known : IndexId → Prop) : Writer FileStore → Prop
  | opened {base : Location} {s : FileStore} {w : Writer FileStore} (blank : s.Blank base)
      (hnow : s.now.IsValid) {settings : WriterSettings}
      (hopen : Writer.open s settings = .ok w) : Reached known w
  | later {w : Writer FileStore} (h : Reached known w) {now : Instant} (hnow : now.IsValid) :
      Reached known (w.setClock now)
  | performed {w : Writer FileStore} (h : Reached known w) {op : Operation}
      (hop : op.Storable known) : Reached known (w.perform op).2
  | crashed {w w' : Writer FileStore} (h : Reached known w) {op : Operation}
      (hop : op.Storable known) (i : Nat) {settings : WriterSettings}
      (hopen : Writer.open (w.crash op i) settings = .ok w') : Reached known w'

variable {known : IndexId → Prop} {w w' : Writer FileStore} {op : Operation}

/-- The store of a writer stands by the manifest that the writer holds. -/
def Standing (known : IndexId → Prop) (w : Writer FileStore) : Prop :=
  w.store.now.IsValid ∧ ∃ base n, w.store.StandsBy known base w.state.manifest n

/-- A writer that is opened on a store that stands by some manifest holds that one. -/
theorem standing_of_open {base : Location} {s : FileStore} {m : Manifest} {n : Option Generation}
    (hs : s.StandsBy known base m n) (hnow : s.now.IsValid) {settings : WriterSettings}
    (hopen : Writer.open s settings = .ok w) : w.Standing known := by
  obtain ⟨cs, hopen'⟩ := hs.open_eq settings
  rw [hopen] at hopen'
  obtain rfl := Except.ok.inj hopen'
  exact ⟨hnow, base, n, hs⟩

namespace Standing

/-- All cuts of an operation: each stands by the manifest before or by the one after. -/
theorem exists_commit (hknown : Distinguished known) (h : w.Standing known)
    (hop : op.Storable known) :
    ∃ base n n' k, w.store.StandsBy known base w.state.manifest n ∧
      (w.perform op).2.store.StandsBy known base (w.perform op).2.state.manifest n' ∧
      (∃ es, w.store.Ran base es (w.perform op).2.store) ∧ ∀ i,
        (i < k → w.store.Keeps known base w.state.manifest n (w.crash op i)) ∧
        (k ≤ i → (w.perform op).2.store.Keeps known base (w.perform op).2.state.manifest n'
          (w.crash op i)) := by
  obtain ⟨hnow, base, n, hs⟩ := h
  obtain ⟨n', hadvances, hrange, hnamed⟩ := w.perform_advances hknown hs hnow hop
  obtain ⟨k, hcuts⟩ := hadvances.exists_commit hs hrange hnamed
  exact ⟨base, n, n', k, hs, hadvances.standsBy hs hrange hnamed, hadvances.exists_ran, hcuts⟩

theorem perform (hknown : Distinguished known) (h : w.Standing known) (hop : op.Storable known) :
    (w.perform op).2.Standing known := by
  obtain ⟨base, _, n', _, _, hend, ⟨_, hran⟩, _⟩ := h.exists_commit hknown hop
  exact ⟨hran.now_eq ▸ h.1, base, n', hend⟩

/-- What a crash leaves can be opened. -/
theorem crash (hknown : Distinguished known) (h : w.Standing known) (hop : op.Storable known)
    (i : Nat) : ∃ base m n, (w.crash op i).StandsBy known base m n := by
  obtain ⟨base, n, n', k, _, _, _, hcuts⟩ := h.exists_commit hknown hop
  rcases Nat.lt_or_ge i k with hi | hi
  · exact ⟨base, _, n, ((hcuts i).1 hi).standsBy⟩
  · exact ⟨base, _, n', ((hcuts i).2 hi).standsBy⟩

end Standing

/-- Every writer that can be reached holds the manifest that its store stands by. -/
theorem Reached.standing (hknown : Distinguished known) (h : Reached known w) :
    w.Standing known := by
  induction h with
  | opened blank hnow hopen => exact standing_of_open (blank.standsBy known) hnow hopen
  | later _ hnow ih =>
    -- Nothing that stands depends on the time.
    obtain ⟨_, base, n, hs⟩ := ih
    exact ⟨hnow, base, n, hs.tidy, hs.stands, hs.inRange, hs.named⟩
  | performed _ hop ih => exact ih.perform hknown hop
  | crashed _ hop i hopen ih =>
    -- What the crash left stands by some manifest, and the new writer holds that one.
    obtain ⟨base, m, n, hs⟩ := ih.crash hknown hop i
    exact standing_of_open hs ih.1 hopen

/-- **Crashes are atomic.** The steps of an operation lead to the store that it leaves. One of them
is such that a crash before it leaves what was loaded before the operation, and a crash behind it
what is loaded after the operation. -/
theorem crash_atomic (hknown : Distinguished known) (hw : Reached known w)
    (hop : op.Storable known) :
    w.crash op (w.steps op).length = (w.perform op).2.store ∧
      ∃ before after k, w.store.load = .ok before ∧ (w.perform op).2.store.load = .ok after ∧
        ∀ i, (w.crash op i).load = .ok (if i < k then before else after) := by
  have hstanding := hw.standing hknown
  obtain ⟨base, n, n', k, hs, hend, ⟨es, hran⟩, hcuts⟩ := hstanding.exists_commit hknown hop
  refine ⟨hran.cut_length, _, _, k, FileStore.load_eq_of_stands hs.tidy hs.stands,
    FileStore.load_eq_of_stands hend.tidy hend.stands, ?_⟩
  intro i
  rcases Nat.lt_or_ge i k with hi | hi
  · rw [if_pos hi, ((hcuts i).1 hi).load_eq hs]
    exact FileStore.load_eq_of_stands hs.tidy hs.stands
  · rw [if_neg (Nat.not_lt.2 hi), ((hcuts i).2 hi).load_eq hend]
    exact FileStore.load_eq_of_stands hend.tidy hend.stands

/-- The first update on an empty directory crashes when the parts of its state are in place and its
manifest is not. The writer that is opened then meets them in its own first update. -/
theorem crash_atomic_behind_orphans :
    Distinguished (· = ⟨"logs", "u1"⟩) ∧
      (Operation.update (.versioned true 2) .empty).Storable (· = ⟨"logs", "u1"⟩) ∧
      ∃ w, Writer.open ((Writer.new .fresh .empty .empty default).crash
          (.update (.versioned true 1) .empty) 8) default = .ok w ∧
        Reached (· = ⟨"logs", "u1"⟩) w ∧
        w.crash (.update (.versioned true 2) .empty)
            (w.steps (.update (.versioned true 2) .empty)).length =
          (w.perform (.update (.versioned true 2) .empty)).2.store ∧
        ∃ before after k, w.store.load = .ok before ∧
          (w.perform (.update (.versioned true 2) .empty)).2.store.load = .ok after ∧
          ∀ i, (w.crash (.update (.versioned true 2) .empty) i).load =
            .ok (if i < k then before else after) := by
  have hstorable : ∀ version, (Operation.update (.versioned true version) .empty).Storable
      (· = ⟨"logs", "u1"⟩) := fun version => (ClusterState.exact_versioned true version).storable
  have hfresh : Reached (· = ⟨"logs", "u1"⟩) (Writer.new .fresh .empty .empty default) :=
    .opened FileStore.blank_fresh ⟨by decide, .inl (by decide)⟩ (FileStore.blank_fresh.open_eq _)
  obtain ⟨base, m, n, hs⟩ := (hfresh.standing distinguished_logs).crash
    distinguished_logs (hstorable 1) 8
  obtain ⟨cs, hopen⟩ := hs.open_eq default
  have hreached := hfresh.crashed (hstorable 1) 8 hopen
  exact ⟨distinguished_logs, hstorable 2, _, hopen, hreached,
    crash_atomic distinguished_logs hreached (hstorable 2)⟩

end Writer

end DurableState
