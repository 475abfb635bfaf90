import Reconcile.Proofs.Extraction

namespace Reconcile

namespace Transform

/-- What a transform does to a value once its element has been looked at. -/
inductive Effect
  | takeOut (start : Except ExtractionError (List Char))
  | writeHours

def Effect.apply (effect : Effect) (value : Value) : Except Fault Value :=
  match effect with
  | takeOut start => do
    let start ← start.mapError .extraction
    let text ← (Operation.removePrefix.textOf value).mapError .input
    return .string (.ofList (Text.removeFirst start text.toList))
  | writeHours => do
    let text ← (Operation.storeHours.textOf value).mapError .input
    let expanded ← (Hours.expand text).mapError fun cause => .input (.hours cause)
    return .string expanded

/-- The effect of a transform on the values of an element, unless it has none on any value. -/
def effect? (element : Value) : Transform → Option Effect
  | removePrefix address => some (.takeOut (prefixFor address element))
  | timeFormat .storeHours => some .writeHours
  | timeFormat (.other _) => none
  | unrecognized _ => none

def isActive : Transform → Bool
  | removePrefix _ => true
  | timeFormat .storeHours => true
  | timeFormat (.other _) => false
  | unrecognized _ => false

theorem isSome_effect? (element : Value) (transform : Transform) :
    (transform.effect? element).isSome = transform.isActive := by
  cases transform with
  | removePrefix address => rfl
  | timeFormat format => cases format <;> rfl
  | unrecognized name => rfl

theorem apply_eq_effect (transform : Transform) (element value : Value) :
    transform.apply element value =
      match transform.effect? element with
      | some effect => effect.apply value
      | none => .ok value := by
  cases transform with
  | removePrefix address => rfl
  | timeFormat format => cases format <;> rfl
  | unrecognized name => rfl

def effects (transforms : List Transform) (element : Value) : List Effect :=
  transforms.filterMap (effect? element)

theorem applyAll_eq_effects (transforms : List Transform) (element value : Value) :
    applyAll transforms element value =
      (effects transforms element).foldlM (fun value effect => effect.apply value) value := by
  induction transforms generalizing value with
  | nil => rfl
  | cons transform transforms ih =>
    have first := apply_eq_effect transform element value
    rw [applyAll, List.foldlM_cons, effects]
    -- A transform without effect hands its value on; the rest of the list starts from it.
    cases found : transform.effect? element with
    | none =>
      rw [first, found, Fallible.ok_bind, List.filterMap_cons_none found]
      exact ih value
    | some effect =>
      rw [first, found, List.filterMap_cons_some found, List.foldlM_cons]
      exact bind_congr ih

theorem effects_filter (transforms : List Transform) (element : Value) :
    effects (transforms.filter isActive) element = effects transforms element := by
  rw [effects, List.filterMap_filter]
  apply List.filterMap_congr
  intro transform _
  cases found : transform.effect? element with
  | none => simp
  | some effect => simp [← isSome_effect? element transform, found]

theorem effects_eq_nil_iff (transforms : List Transform) (element : Value) :
    effects transforms element = [] ↔ transforms.filter isActive = [] := by
  rw [effects, List.filterMap_eq_nil_iff, List.filter_eq_nil_iff]
  apply forall₂_congr
  intro transform _
  rw [← isSome_effect? element transform, Option.not_isSome_iff_eq_none]

theorem Effect.kind_of_apply {effect : Effect} {value result : Value}
    (done : effect.apply value = .ok result) :
    value.kind = .string ∧ result.kind = .string := by
  cases effect with
  | takeOut start =>
    simp only [apply, Fallible.bind_eq_ok_iff, Fallible.mapError_eq_ok_iff,
      Operation.textOf_eq_ok_iff] at done
    obtain ⟨_, -, _, rfl, written⟩ := done
    cases written
    exact ⟨rfl, rfl⟩
  | writeHours =>
    simp only [apply, Fallible.bind_eq_ok_iff, Fallible.mapError_eq_ok_iff,
      Operation.textOf_eq_ok_iff] at done
    obtain ⟨_, rfl, _, -, written⟩ := done
    cases written
    exact ⟨rfl, rfl⟩

theorem kind_of_effects {effects : List Effect} {value result : Value} (some : effects ≠ [])
    (done : effects.foldlM (fun value effect => effect.apply value) value = .ok result) :
    value.kind = .string ∧ result.kind = .string := by
  induction effects generalizing value with
  | nil => exact absurd rfl some
  | cons effect effects ih =>
    obtain ⟨next, first, others⟩ := (Fallible.bind_eq_ok_iff _ _ _).mp done
    obtain ⟨valueString, nextString⟩ := Effect.kind_of_apply first
    cases effects with
    | nil =>
      cases others
      exact ⟨valueString, nextString⟩
    | cons second effects => exact ⟨valueString, (ih (List.cons_ne_nil _ _) others).2⟩

structure Chained (transforms : List Transform) (element value : Value) : Prop where
  append_eq : ∀ more, applyAll (transforms ++ more) element value = do
    let middle ← applyAll transforms element value
    applyAll more element middle
  error_iff : ∀ fault, applyAll transforms element value = .error fault ↔
    ∃ before transform after current, transforms = before ++ transform :: after ∧
      applyAll before element value = .ok current ∧
      transform.apply element current = .error fault
  /-- No transform looks at the element after another one has run, nor at what that one made. -/
  effects_eq : applyAll transforms element value =
    (effects transforms element).foldlM (fun value effect => effect.apply value) value
  filter_eq : applyAll (transforms.filter isActive) element value =
    applyAll transforms element value
  idle : transforms.filter isActive = [] → applyAll transforms element value = .ok value
  strings : transforms.filter isActive ≠ [] →
    ∀ result, applyAll transforms element value = .ok result →
      value.kind = .string ∧ result.kind = .string

/-- Lists of transforms compose, look at the element only, and may do without those that are not
active. -/
theorem applyAll_chained (transforms : List Transform) (element value : Value) :
    Chained transforms element value where
  append_eq more := List.foldlM_append
  error_iff fault := Fallible.foldlM_eq_error_iff _ transforms value fault
  effects_eq := applyAll_eq_effects transforms element value
  filter_eq := by rw [applyAll_eq_effects, effects_filter, ← applyAll_eq_effects]
  idle none := by
    rw [applyAll_eq_effects, (effects_eq_nil_iff transforms element).mpr none]
    rfl
  strings some result done := by
    rw [applyAll_eq_effects] at done
    apply kind_of_effects _ done
    rwa [ne_eq, effects_eq_nil_iff]

example :
    applyAll [.removePrefix ⟨"shop", .field⟩, .unrecognized "uppercase",
        .timeFormat (.other "isoWeek"), .removePrefix ⟨"shop", .field⟩]
      (.object [("code", .string "ST-ST-1"), ("shop", .string "ST-")]) (.string "ST-ST-1") =
    .ok (.string "1") := rfl

end Transform

end Reconcile
