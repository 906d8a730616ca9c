import DurableState.Master
import DurableState.Proofs.Writer

/-!
# DurableState.Proofs.Recovery — a master finds again what it accepted

`Represents` ties a store, a manifest and some metadata together: what the manifest names is held
and is the metadata, global part and indices alike. A master is `Faithful` if its store represents
the last accepted state under the manifest that the writer last committed, and that is the manifest
in the store. Whatever fails, a call leaves the master so, or ends in a fatal error and leaves a
store from which a faithful master can be opened. The main result, `recoverable_run`, says so for
every run.
-/

namespace DurableState

/-! ## Metadata in a store -/

namespace MemoryStore

/-- What the manifest names comes from the given states and is the given metadata. -/
structure Represents (states : List ClusterState) (s : MemoryStore) (m : Manifest)
    (md : Metadata) : Prop where
  recalls : s.Recalls states m
  global : (s.globalOf m).sameContent md.globalState = true
  index : ∀ id, Metadata.SameEntry (s.entryOf? m id) (md.index? id)

namespace Represents

variable {states : List ClusterState} {s s' : MemoryStore} {m : Manifest} {md : Metadata}

/-- It stays so in a store that recalls the manifest and keeps what it names. -/
theorem keeps (h : s.Represents states m md) (hs' : s'.Recalls states m)
    (hkeeps : s.Keeps s' m) : s'.Represents states m md where
  recalls := hs'
  global := by
    rw [hkeeps.globalOf_eq]
    exact h.global
  index id := by
    rw [hkeeps.entryOf?_eq]
    exact h.index id

theorem commit (h : s.Represents states m md) {cs : List Cleanup} (hcs : ∀ c ∈ cs, c.Spares m)
    (c : StoreCall) : (cs.foldl Cleanup.run (s.withManifest m c)).Represents states m md :=
  h.keeps (h.recalls.commit hcs c) (Cleanup.keeps_commit hcs s c)

/-- Metadata that is represented is what loading gives, but for its version. -/
theorem loadFrom (h : s.Represents states m md) (hmd : md.Keyed) :
    ∃ loaded, s.loadFrom m = .ok (m, loaded) ∧ loaded.sameButVersion md = true := by
  obtain ⟨loaded, hload, hkeyed, hglobal, hindex⟩ := h.recalls.exists_loadFrom
  refine ⟨loaded, hload, Metadata.sameButVersion_of_index? hkeyed hmd ?_ ?_⟩
  · rw [hglobal]
    exact h.global
  · intro id
    rw [hindex]
    exact h.index id

/-- With all units of a cycle written, the new manifest represents the new state, if versions are
compared with what was represented before. -/
theorem staged {w : WriterState} {p : CyclePlan} {new : ClusterState}
    {ws : List (StatePart × Generation)}
    (h : s.Represents states w.manifest w.clusterState.metadata)
    (hstaged : p.Staged w new w.clusterState s ws s' m) (hkeyed : new.metadata.Keyed)
    (hmaster : new.LocalMaster) (hnew : new ∈ states) (hconsistent : Consistent states) :
    s'.Represents states m new.metadata where
  recalls := h.recalls.staged hstaged hkeyed hnew
  global := by
    -- The global part is kept only if it is the same as that of the state before.
    rcases hstaged.globalOf_cases h.recalls.holds with ⟨hsame, hkept⟩ | hwritten
    · rw [hkept]
      exact GlobalState.sameContent_trans h.global hsame
    · rw [hwritten]
      exact GlobalState.sameContent_refl _
  index id := by
    cases hg : m.indexGeneration? id with
    | none =>
      -- On a master every index of the new state is named, so there is none here.
      have hentry : s'.entryOf? m id = none := by
        unfold MemoryStore.entryOf?
        rw [hg, Option.bind_none]
      rw [hentry]
      cases he : new.metadata.index? id with
      | none => exact .none
      | some e =>
        obtain ⟨g, hg'⟩ := hstaged.isSome
          (WriterState.mem_actions_of_master hkeyed hmaster hstaged.planned he)
        rw [hg] at hg'
        cases hg'
    | some g =>
      rcases hstaged.entryOf?_cases h.recalls.holds hg with
        ⟨x, b, e, _, hx, hb, he, hversion, hx'⟩ | ⟨e, he, hx', _⟩
      · -- The entry that was kept has the version of the new one and is from a state of the run.
        rw [hx', he]
        have hsame := h.index id
        rw [hx, hb] at hsame
        obtain ⟨c, hc, hce⟩ := h.recalls.carries id x hx
        cases hsame with
        | some hsame =>
          have hxe := (IndexMetadata.version_eq_of_same hsame).trans hversion
          exact .some (hconsistent c hc new hnew id x e hce he hxe)
      · rw [hx', he]
        exact .some (IndexMetadata.same_refl e)

end Represents

end MemoryStore

/-! ## Faithful writers -/

namespace Writer

/-- The store represents what the writer last committed, under the manifest that it holds. -/
structure Faithful (states : List ClusterState) (w : Writer MemoryStore) : Prop where
  represents : w.store.Represents states w.state.manifest w.state.clusterState.metadata
  inStep : w.InStep
  keyed : w.state.clusterState.metadata.Keyed
  version : w.state.manifest.clusterStateVersion = w.state.clusterState.version

namespace Faithful

variable {states : List ClusterState} {w w' : Writer MemoryStore}

theorem sound (h : w.Faithful states) : w.Sound :=
  ⟨h.represents.recalls.wellFormed, h.represents.recalls.holds⟩

theorem setIncremental (h : w.Faithful states) (incremental : Bool) :
    (w.setIncremental incremental).Faithful states :=
  ⟨h.represents, h.inStep, h.keyed, h.version⟩

/-- An unchanged store can take the place of the writer's. -/
theorem unchanged (h : w.Faithful states) {s' : MemoryStore} (hs' : w.Unchanged s') :
    Faithful states { w with store := s' } where
  represents := h.represents.keeps (h.represents.recalls.keeps hs'.wellFormed hs'.keeps) hs'.keeps
  inStep := hs'.current.trans h.inStep
  keyed := h.keyed
  version := h.version

theorem arm (h : w.Faithful states) (a : Arming) : (w.arm a).Faithful states :=
  h.unchanged ⟨MemoryStore.wellFormed_arm h.sound.wellFormed a, MemoryStore.current_arm a,
    MemoryStore.keeps_arm a _⟩

theorem recalls (h : w.Faithful states) : w.store.Recalls states w.store.current := by
  rw [h.inStep]
  exact h.represents.recalls

end Faithful

end Writer

/-- Opening gives back what the manifest in the store names. -/
theorem MemoryStore.Recalls.open {states : List ClusterState} {s : MemoryStore}
    (h : s.Recalls states s.current) (settings : WriterSettings) :
    ∃ w, Writer.open s settings = .ok w ∧ w.Faithful states := by
  obtain ⟨md, hload, hkeyed, hglobal, hindex⟩ := h.exists_loadFrom
  rw [← MemoryStore.load_eq_loadFrom] at hload
  refine ⟨_, Writer.open_eq_ok_iff.2 ⟨s.current, md, hload, rfl⟩, ⟨h, ?_, ?_⟩, rfl, hkeyed, rfl⟩
  · show (s.globalOf s.current).sameContent md.globalState = true
    rw [hglobal]
    exact GlobalState.sameContent_refl _
  · intro id
    show Metadata.SameEntry (s.entryOf? s.current id) (md.index? id)
    rw [hindex]
    -- What is loaded is what the manifest names, entry by entry.
    cases s.entryOf? s.current id with
    | none => exact .none
    | some e => exact .some (IndexMetadata.same_refl e)

/-! ## Calls and runs of a master -/

namespace Master

/-- A call that has to be persisted. -/
inductive Call where
  | setTerm (term : UInt64)
  | accept (state : ClusterState)

/-- Makes a call. -/
def perform (m : Master MemoryStore) : Call → Except (Failure Error) Unit × Master MemoryStore
  | .setTerm term => m.setTerm term
  | .accept state => m.accept state

/-- The master has what the call brought. -/
def Call.Recorded (m : Master MemoryStore) : Call → Prop
  | .setTerm term => m.currentTerm = term
  | .accept state => m.lastAccepted = state

/-- The state that a call brings. -/
def Call.states : Call → List ClusterState
  | .setTerm _ => []
  | .accept state => [state]

/-- What can happen to a master: a failure is armed, or a call is made. If the call is fatal the
store is opened again, with the given settings. -/
inductive Event where
  | arm (a : Arming)
  | call (c : Call) (settings : WriterSettings)

/-- The states that an event brings. -/
def Event.states : Event → List ClusterState
  | .arm _ => []
  | .call c _ => c.states

/-- Opens the store of a master again. -/
def reopen (m : Master MemoryStore) (settings : WriterSettings) :
    Except Error (Master MemoryStore) :=
  (Writer.open m.writer.store settings).map Master.mk

/-- Makes a call, and opens the store again if it is fatal. -/
def attempt (m : Master MemoryStore) (c : Call) (settings : WriterSettings) :
    Except Error (Master MemoryStore) :=
  match m.perform c with
  | (.error (.error (.fatal _)), m) => m.reopen settings
  | (_, m) => .ok m

/-- Lets an event happen. -/
def handle (m : Master MemoryStore) : Event → Except Error (Master MemoryStore)
  | .arm a => .ok ⟨m.writer.arm a⟩
  | .call c settings => m.attempt c settings

/-- Lets events happen, one after the other, as long as the store can be opened. -/
def handleAll (m : Master MemoryStore) : List Event → Except Error (Master MemoryStore)
  | [] => .ok m
  | event :: events =>
    match m.handle event with
    | .ok m => m.handleAll events
    | .error e => .error e

/-- A run that begins with an empty store. -/
def run (settings : WriterSettings) (events : List Event) : Except Error (Master MemoryStore) :=
  match Writer.open MemoryStore.empty settings with
  | .ok w => handleAll ⟨w⟩ events
  | .error e => .error e

/-- Loading gives the writer's manifest, with the term and the version that the master reports, and
the metadata of the last accepted state in every field but its version. -/
def Recoverable (m : Master MemoryStore) : Prop :=
  ∃ md, m.writer.store.load = .ok (m.writer.state.manifest, md) ∧
    m.writer.state.manifest.currentTerm = m.currentTerm ∧
    m.writer.state.manifest.clusterStateVersion = m.lastAccepted.version ∧
    md.sameButVersion m.lastAccepted.metadata = true

/-! ## What a call leaves -/

/-- States that one master can accept in one run: the local node of each can be master, entries
stand under their own names, and versions tell entries of one index apart. -/
structure Acceptable (states : List ClusterState) : Prop where
  master : ∀ s ∈ states, s.LocalMaster
  keyed : ∀ s ∈ states, s.metadata.Keyed
  consistent : Consistent states

/-- What a call leaves, by its outcome. -/
structure Answered (states : List ClusterState) (m : Master MemoryStore) (c : Call)
    (r : Except (Failure Error) Unit) (m' : Master MemoryStore) : Prop where
  ok : r = .ok () → m'.writer.Faithful states ∧ c.Recorded m'
  fatal : ∀ e, r = .error (.error (.fatal e)) →
    m'.writer.store.Recalls states m'.writer.store.current
  failed : ∀ f, r = .error f → (∀ e, f ≠ .error (.fatal e)) →
    m'.writer.Faithful states ∧ m'.writer.store.load = m.writer.store.load ∧
      m'.writer.state.manifest = m.writer.state.manifest ∧ m'.lastAccepted = m.lastAccepted

variable {states : List ClusterState} {m : Master MemoryStore}

/-- A call that committed. -/
theorem Answered.of_ok {c : Call} {m' : Master MemoryStore} (h : m'.writer.Faithful states)
    (hc : c.Recorded m') : Answered states m c (.ok ()) m' where
  ok _ := ⟨h, hc⟩
  fatal e he := by cases he
  failed f hf := by cases hf

/-- A call that failed with a dirty manifest. -/
theorem Answered.of_torn {c : Call} {m' : Master MemoryStore} {e : WriteError}
    (h : m'.writer.store.Recalls states m'.writer.store.current) :
    Answered states m c (.error (.error (.fatal e))) m' where
  ok hr := by cases hr
  fatal _ _ := h
  failed f hf hne := by
    obtain rfl := Except.error.inj hf
    exact absurd rfl (hne e)

/-- A call that failed and left no trace. It may still be fatal. -/
theorem Answered.of_unchanged {c : Call} {m' : Master MemoryStore} {f : Failure Error}
    (h : m'.writer.Faithful states) (hload : m'.writer.store.load = m.writer.store.load)
    (hmanifest : m'.writer.state.manifest = m.writer.state.manifest)
    (hlast : m'.lastAccepted = m.lastAccepted) : Answered states m c (.error f) m' where
  ok hr := by cases hr
  fatal _ _ := h.recalls
  failed _ _ _ := ⟨h, hload, hmanifest, hlast⟩

/-- Whatever happens to the manifest of a new term, the call leaves what its answer says. -/
theorem answered_setTerm (h : m.writer.Faithful states) (term : UInt64) :
    Answered states m (.setTerm term) (m.setTerm term).1 (m.setTerm term).2 := by
  unfold setTerm
  have hset := Writer.termSet h.sound.wellFormed term
  revert hset
  rcases m.writer.setTerm term with ⟨r, w'⟩
  intro hset
  -- A term is in the manifest only, so what is represented stays in all cases.
  cases hset with
  | refused grown =>
    have hunchanged := h.sound.unchanged_grown grown
    exact .of_unchanged (h.unchanged hunchanged) (hunchanged.load_eq h.inStep) rfl rfl
  | torn _ hs' =>
    subst hs'
    exact .of_torn ((h.represents.recalls.withTerm term).withManifest _ _)
  | committed hs' =>
    subst hs'
    have hrecalls := (h.represents.recalls.withTerm term).withManifest
      (m.writer.state.manifest.withTerm term)
      (.writeManifest (m.writer.state.manifest.withTerm term))
    exact .of_ok ⟨⟨hrecalls, h.represents.global, h.represents.index⟩, rfl, h.keyed, h.version⟩ rfl

/-- So does accepting a state, whatever fails in its update. -/
theorem answered_accept (hall : Acceptable states) (h : m.writer.Faithful states)
    {state : ClusterState} (hstate : state ∈ states) :
    Answered states m (.accept state) (m.accept state).1 (m.accept state).2 := by
  have hkeyed := hall.keyed state hstate
  unfold accept
  dsimp only
  generalize (m.lastAccepted.term == state.term) = incremental
  -- Setting the flag changes nothing of what is faithful.
  have h := h.setIncremental incremental
  have hupdated := Writer.updated h.sound.wellFormed hkeyed m.lastAccepted
  revert hupdated
  rcases (m.writer.setIncremental incremental).update state m.lastAccepted with ⟨r, w'⟩
  intro hupdated
  have hrepresents : ∀ {p : CyclePlan} {ws : List (StatePart × Generation)} {s' : MemoryStore}
      {k : Manifest}, p.Staged (m.writer.setIncremental incremental).state state m.lastAccepted
        m.writer.store ws s' k →
      s'.Represents states k state.metadata := by
    intro p ws s' k hstaged
    exact h.represents.staged hstaged hkeyed (hall.master state hstate) hstate hall.consistent
  -- Only a torn manifest is fatal: all other failures leave what is loaded.
  cases hupdated with
  | unplanned _ => exact .of_unchanged h rfl rfl rfl
  | givenUp _ grown spares =>
    have hunchanged := h.sound.unchanged_givenUp grown spares
    exact .of_unchanged (h.unchanged hunchanged) (hunchanged.load_eq h.inStep) rfl rfl
  | idle staged =>
    refine .of_ok ⟨hrepresents staged, ?_, hkeyed, staged.named.version⟩ rfl
    exact staged.grown.current_eq.trans h.inStep
  | torn _ ready =>
    exact .of_torn ((hrepresents ready.staged).recalls.withManifest _ _)
  | committed ready =>
    have hrep := hrepresents ready.staged
    exact .of_ok ⟨hrep.commit ready.spares _, Cleanup.current_foldl_run _ _, hkeyed,
      ready.staged.named.version⟩ rfl

theorem answered_perform {c : Call} (hall : Acceptable states) (h : m.writer.Faithful states)
    (hc : c.states ⊆ states) : Answered states m c (m.perform c).1 (m.perform c).2 := by
  cases c with
  | setTerm term => exact answered_setTerm h term
  | accept state => exact answered_accept hall h (hc List.mem_cons_self)

/-! ## Whole runs -/

theorem recoverable_of_faithful (h : m.writer.Faithful states) : m.Recoverable := by
  obtain ⟨md, hload, hsame⟩ := h.represents.loadFrom h.keyed
  refine ⟨md, ?_, rfl, h.version, hsame⟩
  rw [MemoryStore.load_eq_loadFrom, h.inStep]
  exact hload

theorem exists_reopen (h : m.writer.store.Recalls states m.writer.store.current)
    (settings : WriterSettings) :
    ∃ m', m.reopen settings = .ok m' ∧ m'.writer.Faithful states := by
  obtain ⟨w, hopen, hw⟩ := h.open settings
  refine ⟨⟨w⟩, ?_, hw⟩
  unfold reopen
  rw [hopen]
  rfl

theorem exists_attempt (hall : Acceptable states) (h : m.writer.Faithful states) {c : Call}
    (hc : c.states ⊆ states) (settings : WriterSettings) :
    ∃ m', m.attempt c settings = .ok m' ∧ m'.writer.Faithful states := by
  have hanswered := answered_perform hall h hc
  unfold attempt
  revert hanswered
  rcases m.perform c with ⟨f | ⟨⟩, m'⟩
  · intro hanswered
    -- Only a fatal error has the store opened again.
    by_cases hfatal : ∃ e, f = .error (.fatal e)
    · obtain ⟨e, rfl⟩ := hfatal
      exact exists_reopen (hanswered.fatal e rfl) settings
    · have hne : ∀ e, f ≠ .error (.fatal e) := fun e heq => hfatal ⟨e, heq⟩
      refine ⟨m', ?_, (hanswered.failed f rfl hne).1⟩
      split
      · rename_i heq
        exact absurd (Except.error.inj (Prod.mk.inj heq).1) (hne _)
      · rename_i heq
        rw [(Prod.mk.inj heq).2]
  · intro hanswered
    exact ⟨m', rfl, (hanswered.ok rfl).1⟩

/-- After all events there is a faithful master. -/
theorem exists_handleAll (hall : Acceptable states) (h : m.writer.Faithful states)
    {events : List Event} (hevents : ∀ event ∈ events, event.states ⊆ states) :
    ∃ m', m.handleAll events = .ok m' ∧ m'.writer.Faithful states := by
  -- By induction on the events: each leaves a faithful master, opened again if need be.
  induction events generalizing m with
  | nil => exact ⟨m, rfl, h⟩
  | cons event events ih =>
    obtain ⟨hfirst, hrest⟩ := List.forall_mem_cons.1 hevents
    have hhandle : ∃ m', m.handle event = .ok m' ∧ m'.writer.Faithful states := by
      cases event with
      | arm a => exact ⟨_, rfl, h.arm a⟩
      | call c settings => exact exists_attempt hall h hfirst settings
    obtain ⟨m₁, hhandle, h₁⟩ := hhandle
    unfold handleAll
    rw [hhandle]
    exact ih h₁ hrest

/-- **A master finds again what it accepted.** In every run, with whatever failures armed, every
store can be opened again after a fatal error, and the master can be recovered after every call that
succeeds and every opening. Every other error leaves what would be recovered as it was. -/
theorem recoverable_run (settings : WriterSettings) (events : List Event) (c : Call)
    (hall : Acceptable (events.flatMap Event.states ++ c.states)) :
    ∃ m, run settings events = .ok m ∧ m.Recoverable ∧
      ∀ r m', m.perform c = (r, m') →
        (r = .ok () → m'.Recoverable ∧ c.Recorded m') ∧
        (∀ e, r = .error (.error (.fatal e)) →
          ∀ settings', ∃ m'', m'.reopen settings' = .ok m'' ∧ m''.Recoverable) ∧
        (∀ f, r = .error f → (∀ e, f ≠ .error (.fatal e)) →
          m'.Recoverable ∧ m'.writer.store.load = m.writer.store.load ∧
            m'.writer.state.manifest = m.writer.state.manifest ∧
            m'.lastAccepted = m.lastAccepted) := by
  have hevents : ∀ event ∈ events, event.states ⊆ events.flatMap Event.states ++ c.states := by
    intro event hevent s hs
    exact List.mem_append_left _ (List.mem_flatMap.2 ⟨event, hevent, hs⟩)
  -- A master begins on the empty store, and every event keeps it faithful.
  obtain ⟨w, hopen, hw⟩ := (MemoryStore.Recalls.empty _).open settings
  obtain ⟨m, hrun, hm⟩ := exists_handleAll (m := ⟨w⟩) hall hw hevents
  refine ⟨m, ?_, recoverable_of_faithful hm, ?_⟩
  · unfold run
    rw [hopen]
    exact hrun
  · intro r m' hperform
    have hanswered := answered_perform hall hm (List.subset_append_right _ _)
    rw [hperform] at hanswered
    refine ⟨?_, ?_, ?_⟩
    · intro hr
      obtain ⟨hm', hrecorded⟩ := hanswered.ok hr
      exact ⟨recoverable_of_faithful hm', hrecorded⟩
    · intro e hr settings'
      obtain ⟨m'', hreopen, hm''⟩ := exists_reopen (hanswered.fatal e hr) settings'
      exact ⟨m'', hreopen, recoverable_of_faithful hm''⟩
    · intro f hr hne
      obtain ⟨hm', hunchanged⟩ := hanswered.failed f hr hne
      exact ⟨recoverable_of_faithful hm', hunchanged⟩

/-- A run in which the manifest of the second state fails dirty, and the store is opened again. -/
def tornRun : List Event :=
  [.call (.setTerm 1) default, .call (.accept (.versioned true 1)) default, .arm (.manifest .dirty),
    .call (.accept (.versioned true 2)) default, .arm (.index "logs" .clean)]

theorem recoverable_tornRun :
    Acceptable (tornRun.flatMap Event.states ++ (Call.accept (.versioned true 3)).states) ∧
      ∃ m, run default tornRun = .ok m ∧ m.Recoverable ∧ m.currentTerm = 1 := by
  have hall :
      Acceptable (tornRun.flatMap Event.states ++ (Call.accept (.versioned true 3)).states) :=
    ⟨by decide +kernel, by decide +kernel, by decide +kernel⟩
  obtain ⟨m, hrun, hm, _⟩ := recoverable_run default tornRun (.accept (.versioned true 3)) hall
  refine ⟨hall, m, hrun, hm, ?_⟩
  have hterm : (run default tornRun).map currentTerm = .ok 1 := by decide +kernel
  rw [hrun] at hterm
  exact Except.ok.inj hterm

end Master

end DurableState
