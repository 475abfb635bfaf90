import Mathlib.Data.List.Forall2
import Mathlib.Logic.Unique

namespace Reconcile.Fallible

variable {ε ε' α β : Type}

@[simp] theorem pure_eq_ok (value : α) : (pure value : Except ε α) = .ok value := rfl

@[simp] theorem ok_bind (value : α) (next : α → Except ε β) :
    (Except.ok value >>= next) = next value := rfl

@[simp] theorem error_bind (fault : ε) (next : α → Except ε β) :
    (Except.error fault >>= next) = .error fault := rfl

@[simp] theorem ok_map (value : α) (next : α → β) :
    (Except.ok value : Except ε α).map next = .ok (next value) := rfl

theorem bind_eq_ok_iff (first : Except ε α) (next : α → Except ε β) (result : β) :
    (first >>= next) = .ok result ↔ ∃ value, first = .ok value ∧ next value = .ok result := by
  cases first <;> simp [Bind.bind, Except.bind]

theorem map_eq_ok_iff (first : Except ε α) (next : α → β) (result : β) :
    first.map next = .ok result ↔ ∃ value, first = .ok value ∧ next value = result := by
  cases first <;> simp [Except.map]

theorem bind_eq_error_iff (first : Except ε α) (next : α → Except ε β) (fault : ε) :
    (first >>= next) = .error fault ↔
      first = .error fault ∨ ∃ value, first = .ok value ∧ next value = .error fault := by
  cases first <;> simp [Bind.bind, Except.bind]

theorem map_eq_error_iff (first : Except ε α) (next : α → β) (fault : ε) :
    first.map next = .error fault ↔ first = .error fault := by
  cases first <;> simp [Except.map]

theorem mapError_eq_ok_iff (first : Except ε α) (blame : ε → ε') (result : α) :
    first.mapError blame = .ok result ↔ first = .ok result := by
  cases first <;> simp [Except.mapError]

theorem mapError_eq_error_iff (first : Except ε α) (blame : ε → ε') (fault : ε') :
    first.mapError blame = .error fault ↔ ∃ cause, first = .error cause ∧ blame cause = fault := by
  cases first <;> simp [Except.mapError]

def inTurn (first second : Except ε (List α)) : Except ε (List α) :=
  match first, second with
  | .ok results, .ok more => .ok (results ++ more)
  | .ok _, .error fault => .error fault
  | .error fault, _ => .error fault

theorem inTurn_nil (first : Except ε (List α)) : inTurn first (.ok []) = first := by
  cases first <;> simp [inTurn]

theorem inTurn_assoc (first second third : Except ε (List α)) :
    inTurn (inTurn first second) third = inTurn first (inTurn second third) := by
  cases first <;> cases second <;> cases third <;> simp [inTurn]

theorem inTurn_mapM (step : α → Except ε (Option β)) (item : α) (items : List α) :
    (do
        let found ← (item :: items).mapM step
        return found.filterMap id) =
      inTurn ((step item).map Option.toList) (do
        let found ← items.mapM step
        return found.filterMap id) := by
  rw [List.mapM_cons]
  cases here : step item with
  | error fault => simp only [error_bind, Except.map, inTurn]
  | ok first =>
    cases others : items.mapM step with
    | error fault => simp only [ok_bind, error_bind, ok_map, inTurn]
    | ok rest =>
      simp only [ok_bind, pure_eq_ok, ok_map, inTurn]
      cases first <;> rfl

/-- A computation told apart by when it succeeds and how it fails; one of both always applies. -/
structure Settles (result : Except ε α) (good : Prop) (bad : ε → Prop) : Prop where
  succeeds : good → ∃ value, result = .ok value
  fails : ∀ fault, bad fault → result = .error fault
  either : good ∨ ∃ fault, bad fault

namespace Settles

variable {result : Except ε α} {good : Prop} {bad : ε → Prop}

theorem succeeds_iff (settles : Settles result good bad) :
    (∃ value, result = .ok value) ↔ good := by
  refine ⟨fun ⟨value, succeeded⟩ => settles.either.resolve_right ?_, settles.succeeds⟩
  rintro ⟨fault, failed⟩
  rw [settles.fails fault failed] at succeeded
  cases succeeded

theorem fails_iff (settles : Settles result good bad) (fault : ε) :
    result = .error fault ↔ bad fault := by
  refine ⟨fun failed => ?_, settles.fails fault⟩
  rcases settles.either with succeeded | ⟨other, isBad⟩
  · obtain ⟨value, done⟩ := settles.succeeds succeeded
    rw [done] at failed
    cases failed
  · rw [settles.fails other isBad, Except.error.injEq] at failed
    exact failed ▸ isBad

end Settles

theorem forM_eq_ok_iff (check : α → Except ε Unit) (items : List α) :
    forM items check = .ok () ↔ ∀ item ∈ items, check item = .ok () := by
  induction items with
  | nil => simp [Pure.pure, Except.pure]
  | cons item items ih =>
    simp only [List.forM_cons, bind_eq_ok_iff, ih, List.forall_mem_cons, Unique.exists_iff,
      PUnit.default_eq_unit]

theorem mapM_eq_ok_iff (step : α → Except ε β) (items : List α) (results : List β) :
    items.mapM step = .ok results ↔ List.Forall₂ (step · = .ok ·) items results := by
  induction items generalizing results with
  | nil => simp [eq_comm]
  | cons item items ih =>
    simp only [List.mapM_cons, bind_eq_ok_iff, ih, List.forall₂_cons_left_iff, pure_eq_ok,
      Except.ok.injEq]
    constructor
    · rintro ⟨first, firstDone, others, othersDone, rfl⟩
      exact ⟨first, others, firstDone, othersDone, rfl⟩
    · rintro ⟨first, others, firstDone, othersDone, rfl⟩
      exact ⟨first, firstDone, others, othersDone, rfl⟩

theorem mapM_eq_ok_of_forall {step : α → Except ε β} {items : List α} (result : α → β)
    (done : ∀ item ∈ items, step item = .ok (result item)) :
    items.mapM step = .ok (items.map result) := by
  rw [mapM_eq_ok_iff, List.forall₂_map_right_iff, List.forall₂_same]
  exact done

theorem mapM_eq_error_iff (step : α → Except ε β) (items : List α) (fault : ε) :
    items.mapM step = .error fault ↔
      ∃ before item after, items = before ++ item :: after ∧
        (∀ earlier ∈ before, ∃ result, step earlier = .ok result) ∧ step item = .error fault := by
  induction items with
  | nil => simp
  | cons first items ih =>
    rw [List.mapM_cons]
    cases done : step first with
    | error cause =>
      rw [error_bind, Except.error.injEq]
      constructor
      · rintro rfl
        exact ⟨[], first, items, rfl, by simp, done⟩
      · rintro ⟨before, item, after, split, earlier, failed⟩
        cases before with
        | nil =>
          cases split
          rw [done] at failed
          exact Except.error.inj failed
        | cons _ before =>
          cases split
          obtain ⟨result, here⟩ := earlier first List.mem_cons_self
          rw [done] at here
          cases here
    | ok result =>
      have rest : (items.mapM step >>= fun results => pure (result :: results)) = .error fault ↔
          items.mapM step = .error fault := by simp [bind_eq_error_iff]
      rw [ok_bind, rest, ih]
      constructor
      · rintro ⟨before, item, after, rfl, earlier, failed⟩
        exact ⟨first :: before, item, after, rfl,
          List.forall_mem_cons.mpr ⟨⟨result, done⟩, earlier⟩, failed⟩
      · rintro ⟨before, item, after, split, earlier, failed⟩
        cases before with
        | nil =>
          cases split
          rw [done] at failed
          cases failed
        | cons _ before =>
          cases split
          exact ⟨before, item, after, rfl, (List.forall_mem_cons.mp earlier).2, failed⟩

theorem forM_eq_map_mapM (check : α → Except ε Unit) (items : List α) :
    forM items check = (items.mapM check).map fun _ => () := by
  induction items with
  | nil => rfl
  | cons item items ih =>
    rw [List.forM_cons, List.mapM_cons]
    cases check item with
    | error cause => rfl
    | ok done =>
      rw [ok_bind, ok_bind, ih]
      cases items.mapM check <;> rfl

theorem forM_eq_error_iff (check : α → Except ε Unit) (items : List α) (fault : ε) :
    forM items check = .error fault ↔
      ∃ before item after, items = before ++ item :: after ∧
        (∀ earlier ∈ before, check earlier = .ok ()) ∧ check item = .error fault := by
  rw [forM_eq_map_mapM, map_eq_error_iff, mapM_eq_error_iff]
  simp only [Unique.exists_iff, PUnit.default_eq_unit]

theorem step_of_foldlM_eq_ok {step : β → α → Except ε β} {items : List α} {start result : β}
    (done : items.foldlM step start = .ok result) :
    ∀ item ∈ items, ∃ before after, step before item = .ok after := by
  induction items generalizing start with
  | nil => simp
  | cons item items ih =>
    obtain ⟨next, first, others⟩ := (bind_eq_ok_iff _ _ _).mp done
    exact List.forall_mem_cons.mpr ⟨⟨start, next, first⟩, ih others⟩

theorem foldlM_eq_error_iff (step : β → α → Except ε β) (items : List α) (start : β) (fault : ε) :
    items.foldlM step start = .error fault ↔
      ∃ before item after current, items = before ++ item :: after ∧
        before.foldlM step start = .ok current ∧ step current item = .error fault := by
  constructor
  · intro failed
    induction items generalizing start with
    | nil => cases failed
    | cons item items ih =>
      rcases (bind_eq_error_iff _ _ _).mp failed with here | ⟨next, first, later⟩
      · exact ⟨[], item, items, start, rfl, rfl, here⟩
      · obtain ⟨before, other, after, current, rfl, reached, there⟩ := ih next later
        have together : (item :: before).foldlM step start = .ok current :=
          (bind_eq_ok_iff _ _ _).mpr ⟨next, first, reached⟩
        exact ⟨item :: before, other, after, current, rfl, together, there⟩
  · rintro ⟨before, item, after, current, rfl, reached, failed⟩
    rw [List.foldlM_append, reached, ok_bind, List.foldlM_cons, failed, error_bind]

theorem mapM_eq_some_iff (step : α → Option β) (items : List α) (results : List β) :
    items.mapM step = some results ↔ List.Forall₂ (step · = some ·) items results := by
  induction items generalizing results with
  | nil => simp [eq_comm]
  | cons item items ih =>
    simp only [List.mapM_cons, Option.bind_eq_bind, Option.bind_eq_some_iff, ih,
      List.forall₂_cons_left_iff, Option.pure_def, Option.some.injEq]
    constructor
    · rintro ⟨first, firstDone, others, othersDone, rfl⟩
      exact ⟨first, others, firstDone, othersDone, rfl⟩
    · rintro ⟨first, others, firstDone, othersDone, rfl⟩
      exact ⟨first, firstDone, others, othersDone, rfl⟩

theorem exists_forall₂_iff (step : α → β → Prop) (items : List α) :
    (∃ results, List.Forall₂ step items results) ↔ ∀ item ∈ items, ∃ result, step item result := by
  induction items with
  | nil => simp
  | cons item items ih =>
    rw [List.forall_mem_cons, ← ih]
    constructor
    · rintro ⟨_, _ | ⟨first, others⟩⟩
      exact ⟨⟨_, first⟩, _, others⟩
    · rintro ⟨⟨_, first⟩, _, others⟩
      exact ⟨_, .cons first others⟩

theorem forall_of_forall₂ {step : α → β → Prop} {good : β → Prop} {items : List α}
    {results : List β} (steps : List.Forall₂ step items results)
    (holds : ∀ item ∈ items, ∀ result, step item result → good result) :
    ∀ result ∈ results, good result := by
  induction steps with
  | nil => simp
  | cons first _ ih =>
    rw [List.forall_mem_cons] at holds ⊢
    exact ⟨holds.1 _ first, ih holds.2⟩

theorem forall₂_back {forth : β → α → Prop} {back : α → β → Prop} {items : List α}
    {results : List β} (steps : List.Forall₂ forth results items)
    (undone : ∀ result ∈ results, ∀ item ∈ items, forth result item → back item result) :
    List.Forall₂ back items results := by
  induction steps with
  | nil => exact .nil
  | cons first _ ih =>
    simp only [List.forall_mem_cons] at undone
    exact .cons (undone.1.1 first) (ih fun result listed => (undone.2 result listed).2)

theorem of_ite {choice goal : Prop} [Decidable choice] {first second result : α}
    (found : (if choice then first else second) = result) (yes : first = result → goal)
    (no : second = result → goal) : goal := by
  split at found
  · exact yes found
  · exact no found

end Reconcile.Fallible
