import Mathlib.Data.List.Forall2
import Mathlib.Data.List.Nodup

/-!
# DurableState.Proofs.Lists — lists that are folded, mapped and searched

What the other modules need of lists in general: folds and maps whose function may fail, look-ups by
a key, and filters with one result. A map that may fail is told by its results, member by member
(`mapM_eq_some_iff`, `mapM_eq_ok_iff`); if it does fail, then at its first member that does
(`mapM_eq_error_iff`).
-/

namespace DurableState

variable {α β γ ε κ σ : Type}

/-! ## Folds that may stop -/

theorem foldlM_append_of_eq_some {f : σ → α → Option σ} {s s' : σ} {xs : List α}
    (h : xs.foldlM f s = some s') (ys : List α) :
    (xs ++ ys).foldlM f s = ys.foldlM f s' := by
  rw [List.foldlM_append, h]
  rfl

theorem foldlM_cons_of_eq_some {f : σ → α → Option σ} {s s' : σ} {x : α}
    (h : f s x = some s') (xs : List α) : (x :: xs).foldlM f s = xs.foldlM f s' := by
  rw [List.foldlM_cons, h]
  rfl

/-! ## Maps with missing results -/

/-- A map with missing results is told by its results, one for each member. -/
theorem mapM_eq_some_iff {f : α → Option β} {xs : List α} {ys : List β} :
    xs.mapM f = some ys ↔ List.Forall₂ (fun x y => f x = some y) xs ys := by
  induction xs generalizing ys with
  | nil => simp [List.forall₂_nil_left_iff, eq_comm]
  | cons x xs ih =>
    simp only [List.mapM_cons, Option.bind_eq_bind, Option.bind_eq_some_iff, Option.pure_def,
      Option.some.injEq, List.forall₂_cons_left_iff, ih]
    constructor
    · rintro ⟨y, hy, ys, hys, rfl⟩
      exact ⟨y, ys, hy, hys, rfl⟩
    · rintro ⟨y, ys, hy, hys, rfl⟩
      exact ⟨y, hy, ys, hys, rfl⟩

/-- What is undone member by member is undone as a whole. -/
theorem mapM_map_eq_some {f : β → Option α} {g : α → β} {xs : List α}
    (h : ∀ x ∈ xs, f (g x) = some x) : (xs.map g).mapM f = some xs := by
  rw [mapM_eq_some_iff, List.forall₂_map_left_iff, List.forall₂_same]
  exact h

/-- Every member of the second list belongs to one of the first. -/
theorem exists_of_forall₂ {R : α → β → Prop} {xs : List α} {ys : List β}
    (h : List.Forall₂ R xs ys) {y : β} (hy : y ∈ ys) : ∃ x ∈ xs, R x y := by
  induction h with
  | nil => cases hy
  | cons hx _ ih =>
    rcases List.mem_cons.1 hy with rfl | hy
    · exact ⟨_, List.mem_cons_self, hx⟩
    · obtain ⟨x, hmem, hx⟩ := ih hy
      exact ⟨x, List.mem_cons_of_mem _ hmem, hx⟩

theorem exists_of_mapM_eq_some {f : α → Option β} {xs : List α} {ys : List β}
    (h : xs.mapM f = some ys) {y : β} (hy : y ∈ ys) : ∃ x ∈ xs, f x = some y :=
  exists_of_forall₂ (mapM_eq_some_iff.1 h) hy

/-- Another function that agrees wherever there was a result gives the same results. -/
theorem mapM_eq_some_mono {f g : α → Option β} {xs : List α} {ys : List β}
    (h : xs.mapM f = some ys) (hfg : ∀ x ∈ xs, ∀ y, f x = some y → g x = some y) :
    xs.mapM g = some ys := by
  rw [mapM_eq_some_iff] at h ⊢
  induction h with
  | nil => exact .nil
  | cons hx _ ih =>
    obtain ⟨hfirst, hrest⟩ := List.forall_mem_cons.1 hfg
    exact .cons (hfirst _ hx) (ih hrest)

/-! ## Maps that may fail -/

/-- A map that does not fail is told by its results, one for each member. -/
theorem mapM_eq_ok_iff {f : α → Except ε β} {xs : List α} {ys : List β} :
    xs.mapM f = .ok ys ↔ List.Forall₂ (fun x y => f x = .ok y) xs ys := by
  induction xs generalizing ys with
  | nil =>
    rw [List.forall₂_nil_left_iff]
    exact ⟨fun h => (Except.ok.inj h).symm, fun h => congrArg Except.ok h.symm⟩
  | cons x xs ih =>
    rw [List.mapM_cons, List.forall₂_cons_left_iff]
    constructor
    · intro h
      -- The first member that fails would end it.
      cases hx : f x with
      | error e => simp [hx, bind, Except.bind] at h
      | ok y =>
        cases hxs : xs.mapM f with
        | error e => simp [hx, hxs, bind, Except.bind] at h
        | ok ys' =>
          simp only [hx, hxs, bind, Except.bind, pure, Except.pure, Except.ok.injEq] at h
          exact ⟨y, ys', rfl, ih.1 hxs, h.symm⟩
    · rintro ⟨y, ys', hx, hxs, rfl⟩
      rw [hx, ih.2 hxs]
      rfl

theorem mapM_eq_ok_mono {f g : α → Except ε β} {xs : List α} {ys : List β}
    (h : xs.mapM f = .ok ys) (hfg : ∀ x y, f x = .ok y → g x = .ok y) : xs.mapM g = .ok ys := by
  rw [mapM_eq_ok_iff] at h ⊢
  exact h.imp hfg

/-- The results are also those of a function that has none instead of failing. -/
theorem mapM_eq_ok_filterMap {f : α → Except ε β} {f? : α → Option β} {xs : List α}
    (h : ∀ x ∈ xs, ∃ y, f? x = some y ∧ f x = .ok y) : xs.mapM f = .ok (xs.filterMap f?) := by
  induction xs with
  | nil => rfl
  | cons x xs ih =>
    obtain ⟨⟨y, hsome, hok⟩, hrest⟩ := List.forall_mem_cons.1 h
    rw [List.mapM_cons, hok, ih hrest, List.filterMap_cons_some hsome]
    rfl

theorem exists_mapM_ok {f : α → Except ε β} {xs : List α} (h : ∀ x ∈ xs, ∃ y, f x = .ok y) :
    ∃ ys, xs.mapM f = .ok ys := by
  have hall : xs.mapM f = .ok (xs.filterMap fun x => (f x).toOption) := by
    refine mapM_eq_ok_filterMap fun x hx => ?_
    obtain ⟨y, hy⟩ := h x hx
    exact ⟨y, by rw [hy]; rfl, hy⟩
  exact ⟨_, hall⟩

/-- A failure is that of the first member that fails. -/
theorem mapM_eq_error_iff {f : α → Except ε β} {xs : List α} {e : ε} :
    xs.mapM f = .error e ↔ ∃ front x rest, xs = front ++ x :: rest ∧
      (∀ y ∈ front, ∃ b, f y = .ok b) ∧ f x = .error e := by
  constructor
  · intro h
    induction xs with
    | nil => cases h
    | cons x xs ih =>
      rw [List.mapM_cons] at h
      cases hx : f x with
      | error e' =>
        simp only [hx, bind, Except.bind, Except.error.injEq] at h
        exact ⟨[], x, xs, rfl, List.forall_mem_nil _, h ▸ hx⟩
      | ok b =>
        cases hxs : xs.mapM f with
        | error e' =>
          simp only [hx, hxs, bind, Except.bind, Except.error.injEq] at h
          -- This member succeeds, so it goes in front of those before the failure.
          obtain ⟨front, y, rest, rfl, hfront, hy⟩ := ih (h ▸ hxs)
          exact ⟨x :: front, y, rest, rfl, List.forall_mem_cons.2 ⟨⟨b, hx⟩, hfront⟩, hy⟩
        | ok bs => simp [hx, hxs, bind, Except.bind, pure, Except.pure] at h
  · -- Those in front succeed as a whole, and the next member ends it.
    rintro ⟨front, x, rest, rfl, hfront, hx⟩
    obtain ⟨bs, hbs⟩ := exists_mapM_ok hfront
    rw [List.mapM_append, hbs, List.mapM_cons, hx]
    rfl

/-- If for each member the same failure comes whatever a parameter is, or none, then so it is for
all of them. -/
theorem mapM_error_or_ok {f : γ → α → Except ε β}
    (h : ∀ x, (∃ e, ∀ c, f c x = .error e) ∨ ∀ c, ∃ y, f c x = .ok y) (xs : List α) :
    (∃ e, ∀ c, xs.mapM (f c) = .error e) ∨ ∀ c, ∃ ys, xs.mapM (f c) = .ok ys := by
  induction xs with
  | nil => exact .inr fun c => ⟨[], rfl⟩
  | cons x xs ih =>
    simp only [List.mapM_cons]
    rcases h x with ⟨e, he⟩ | hok
    · refine .inl ⟨e, fun c => ?_⟩
      rw [he c]
      rfl
    rcases ih with ⟨e, he⟩ | hoks
    · -- This member succeeds, but one of the rest fails.
      refine .inl ⟨e, fun c => ?_⟩
      obtain ⟨y, hy⟩ := hok c
      rw [hy, he c]
      rfl
    · refine .inr fun c => ?_
      obtain ⟨y, hy⟩ := hok c
      obtain ⟨ys, hys⟩ := hoks c
      exact ⟨y :: ys, by rw [hy, hys]; rfl⟩

/-! ## Look-ups and filters -/

/-- Where no key comes twice, a look-up finds whatever is there. -/
theorem lookup_eq_some_iff_mem [DecidableEq κ] {es : List (κ × α)}
    (hkeys : (es.map Prod.fst).Nodup) {k : κ} {a : α} : es.lookup k = some a ↔ (k, a) ∈ es := by
  induction es with
  | nil => simp
  | cons e es ih =>
    obtain ⟨q, b⟩ := e
    obtain ⟨hnew, hkeys⟩ := List.nodup_cons.1 hkeys
    rw [List.lookup_cons, List.mem_cons, Prod.mk.injEq]
    by_cases hk : k = q
    · subst hk
      -- The key does not come again, so what is found here is all there is.
      have habsent : (k, a) ∉ es := fun hmem => hnew (List.mem_map.2 ⟨_, hmem, rfl⟩)
      simp [habsent, eq_comm]
    · have hbeq : (k == q) = false := beq_eq_false_iff_ne.2 hk
      rw [hbeq]
      simp [hk, ih hkeys]

theorem mem_of_lookup_eq_some [BEq κ] [LawfulBEq κ] {es : List (κ × α)} {k : κ} {a : α}
    (h : es.lookup k = some a) : (k, a) ∈ es := by
  obtain ⟨front, rest, rfl, _⟩ := List.lookup_eq_some_iff.1 h
  simp

/-- Where every member has a result, the results are one for each member. -/
theorem forall₂_filterMap {f : α → Option β} {xs : List α}
    (h : ∀ x ∈ xs, (f x).isSome = true) :
    List.Forall₂ (fun x y => f x = some y) xs (xs.filterMap f) := by
  induction xs with
  | nil => exact .nil
  | cons x xs ih =>
    obtain ⟨hx, hrest⟩ := List.forall_mem_cons.1 h
    obtain ⟨y, hy⟩ := Option.isSome_iff_exists.1 hx
    rw [List.filterMap_cons_some hy]
    exact .cons hy (ih hrest)

theorem nodup_eraseDups [BEq α] [LawfulBEq α] (xs : List α) : xs.eraseDups.Nodup := by
  match xs with
  | [] => exact List.nodup_nil
  | x :: xs =>
    rw [List.eraseDups_cons, List.nodup_cons]
    refine ⟨?_, nodup_eraseDups _⟩
    -- Further copies of the first member are filtered out before the rest is looked at.
    intro hmem
    have hkept := (List.mem_filter.1 (List.mem_eraseDups.1 hmem)).2
    simp at hkept
termination_by xs.length
decreasing_by
  exact Nat.lt_succ_of_le (List.length_filter_le _ _)

/-- If only what comes from one place passes, it is all that is left. -/
theorem filter_filterMap_eq_singleton {f : α → Option β} {p : β → Bool} {xs : List α} {a : α}
    {b : β} (hxs : xs.Nodup) (ha : a ∈ xs) (hb : f a = some b) (hp : p b = true)
    (hother : ∀ x ∈ xs, ∀ y, f x = some y → p y = true → x = a) :
    (xs.filterMap f).filter p = [b] := by
  induction xs with
  | nil => cases ha
  | cons x xs ih =>
    obtain ⟨hx, hxs⟩ := List.nodup_cons.1 hxs
    obtain ⟨hfirst, hrest⟩ := List.forall_mem_cons.1 hother
    rcases List.mem_cons.1 ha with rfl | ha
    · -- Nothing behind the place passes, for it does not come again.
      rw [List.filterMap_cons_some hb, List.filter_cons_of_pos hp, List.cons.injEq]
      refine ⟨rfl, List.filter_eq_nil_iff.2 ?_⟩
      intro y hy hpy
      obtain ⟨z, hz, hfz⟩ := List.mem_filterMap.1 hy
      exact hx (hrest z hz y hfz hpy ▸ hz)
    · -- What is found in another place does not pass.
      have hskip : ((x :: xs).filterMap f).filter p = (xs.filterMap f).filter p := by
        cases hfx : f x with
        | none => rw [List.filterMap_cons_none hfx]
        | some y =>
          rw [List.filterMap_cons_some hfx, List.filter_cons_of_neg]
          intro hpy
          exact hx (hfirst y hfx hpy ▸ ha)
      rw [hskip]
      exact ih hxs ha hrest

end DurableState
