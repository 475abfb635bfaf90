import Reconcile.Proofs.Document.Members
import Reconcile.Proofs.Extraction
import Reconcile.Proofs.Outcome

namespace Reconcile

/-- What is wrong with two values at a step: their texts differ, or one of them has no text that
could be compared without its blanks, the source first. -/
inductive PairFault (step : Step) (source target : Value) : Strictness → Fault → Prop
  | trimmedDiffer (differ : Text.trim source.plain ≠ Text.trim target.plain) :
      PairFault step source target .trimmed (.valueMismatch step source target)
  | strippedDiffer {sourceText targetText : String} (atSource : source = .string sourceText)
      (atTarget : target = .string targetText)
      (differ : Text.squeeze sourceText.toList ≠ Text.squeeze targetText.toList) :
      PairFault step source target .stripped (.valueMismatch step source target)
  | sourceNoString (other : source.kind ≠ .string) :
      PairFault step source target .stripped
        (.input (.notString .strippedComparison source.kind))
  | targetNoString (isString : source.kind = .string) (other : target.kind ≠ .string) :
      PairFault step source target .stripped
        (.input (.notString .strippedComparison target.kind))

namespace Pair

theorem agree_stripped_eq_ok_false_iff (pair : Pair) :
    pair.agree .stripped = .ok false ↔
      ∃ sourceText targetText, pair.source = .string sourceText ∧
        pair.target = .string targetText ∧
        Text.squeeze sourceText.toList ≠ Text.squeeze targetText.toList := by
  simp only [agree, Fallible.bind_eq_ok_iff, Operation.textOf_eq_ok_iff, Fallible.pure_eq_ok,
    Except.ok.injEq, beq_eq_false_iff_ne]
  constructor
  · rintro ⟨sourceText, atSource, targetText, atTarget, differ⟩
    exact ⟨sourceText, targetText, atSource, atTarget, differ⟩
  · rintro ⟨sourceText, targetText, atSource, atTarget, differ⟩
    exact ⟨sourceText, atSource, targetText, atTarget, differ⟩

theorem agree_stripped_eq_error_iff (pair : Pair) (cause : InputError) :
    pair.agree .stripped = .error cause ↔
      pair.source.kind ≠ .string ∧ .notString .strippedComparison pair.source.kind = cause ∨
      pair.source.kind = .string ∧ pair.target.kind ≠ .string ∧
        .notString .strippedComparison pair.target.kind = cause := by
  simp only [agree, Fallible.bind_eq_error_iff, Operation.textOf_eq_error_iff,
    Operation.textOf_eq_ok_iff, Value.kind_eq_string_iff pair.source, Fallible.pure_eq_ok]
  simp

theorem check_eq_error_iff (strictness : Strictness) (pair : Pair) (fault : Fault) :
    pair.check strictness = .error fault ↔
      PairFault pair.step pair.source pair.target strictness fault := by
  have unfolded : pair.check strictness = .error fault ↔
      pair.agree strictness = .ok false ∧
          .valueMismatch pair.step pair.source pair.target = fault ∨
        ∃ cause, pair.agree strictness = .error cause ∧ .input cause = fault := by
    rw [check]
    rcases pair.agree strictness with _ | _ | _ <;> simp
  rw [unfolded]
  cases strictness with
  | trimmed =>
    constructor
    · rintro (⟨differ, rfl⟩ | ⟨cause, failed, -⟩)
      · apply PairFault.trimmedDiffer
        simpa [agree] using differ
      · cases failed
    · rintro ⟨differ⟩
      left
      exact ⟨by simpa [agree] using differ, rfl⟩
  | stripped =>
    rw [agree_stripped_eq_ok_false_iff]
    simp only [agree_stripped_eq_error_iff]
    constructor
    · rintro (⟨⟨_, _, atSource, atTarget, differ⟩, rfl⟩ |
        ⟨_, ⟨other, rfl⟩ | ⟨isString, other, rfl⟩, rfl⟩)
      · exact .strippedDiffer atSource atTarget differ
      · exact .sourceNoString other
      · exact .targetNoString isString other
    · intro wrong
      cases wrong with
      | strippedDiffer atSource atTarget differ =>
        exact .inl ⟨⟨_, _, atSource, atTarget, differ⟩, rfl⟩
      | sourceNoString other => exact .inr ⟨_, .inl ⟨other, rfl⟩, rfl⟩
      | targetNoString isString other => exact .inr ⟨_, .inr ⟨isString, other, rfl⟩, rfl⟩

theorem compare_eq_error_iff (strictness : Strictness) (pairs : List Pair) (fault : Fault) :
    compare strictness pairs = .error fault ↔
      ∃ before pair after, pairs = before ++ pair :: after ∧
        (∀ earlier ∈ before, strictness.Agree earlier.source earlier.target) ∧
        PairFault pair.step pair.source pair.target strictness fault := by
  simp only [compare, List.forM_eq_forM, Fallible.bind_eq_error_iff, Fallible.pure_eq_ok,
    reduceCtorEq, and_false, exists_false, or_false, Fallible.forM_eq_error_iff, check_eq_ok_iff,
    check_eq_error_iff]

theorem ofItems_take (source target : List Value) (count : Nat) :
    ofItems (source.take count) (target.take count) = (ofItems source target).take count := by
  apply List.ext_getElem?
  intro index
  apply Option.ext
  intro pair
  by_cases inside : index < count
  · simp only [getElem?_ofItems_eq_some_iff, List.getElem?_take, if_pos inside]
  · simp only [getElem?_ofItems_eq_some_iff, List.getElem?_take, if_neg inside, reduceCtorEq,
      false_and, exists_false]

end Pair

structure ItemsCompared (strictness : Strictness) (source target : List Value) : Prop where
  ok_iff : ∀ count, compareItems strictness source target = .ok count ↔
    count = min source.length target.length ∧ strictness.AgreeAtAll source target
  /-- The fault is that of the first position at which the values do not agree. -/
  error_iff : ∀ fault, compareItems strictness source target = .error fault ↔
    ∃ index a b, source[index]? = some a ∧ target[index]? = some b ∧
      strictness.AgreeAtAll (source.take index) (target.take index) ∧
      PairFault (.index index) a b strictness fault

theorem itemsCompared (strictness : Strictness) (source target : List Value) :
    ItemsCompared strictness source target where
  ok_iff count := by
    rw [compareItems_eq_ok_iff, and_comm, eq_comm]
  error_iff fault := by
    rw [compareItems, Pair.compare_eq_error_iff]
    constructor
    · rintro ⟨before, pair, after, split, earlier, wrong⟩
      have start : (Pair.ofItems source target).take before.length = before := by
        rw [split, List.take_left]
      have here : (Pair.ofItems source target)[before.length]? = some pair := by
        rw [split, List.getElem?_append_right le_rfl, Nat.sub_self, List.getElem?_cons_zero]
      obtain ⟨a, b, atSource, atTarget, rfl⟩ :=
        (Pair.getElem?_ofItems_eq_some_iff source target before.length pair).mp here
      refine ⟨before.length, a, b, atSource, atTarget, ?_, wrong⟩
      rw [← Pair.forall_mem_ofItems_iff, Pair.ofItems_take, start]
      exact earlier
    · rintro ⟨index, a, b, atSource, atTarget, earlier, wrong⟩
      have here : (Pair.ofItems source target)[index]? = some ⟨.index index, a, b⟩ :=
        (Pair.getElem?_ofItems_eq_some_iff source target index _).mpr
          ⟨a, b, atSource, atTarget, rfl⟩
      obtain ⟨inside, same⟩ := List.getElem?_eq_some_iff.mp here
      refine ⟨(Pair.ofItems source target).take index, ⟨.index index, a, b⟩,
        (Pair.ofItems source target).drop (index + 1), ?_, ?_, wrong⟩
      · rw [← same, ← List.drop_eq_getElem_cons inside, List.take_append_drop]
      · rw [← Pair.ofItems_take, Pair.forall_mem_ofItems_iff]
        exact earlier

structure MembersCompared (strictness : Strictness) (source target : List (String × Value)) :
    Prop where
  ok_iff : ∀ count, compareDocuments strictness (.object source) (.object target) = .ok count ↔
    count = (Value.object source).sharedCount (.object target) ∧
      strictness.AgreeAtNames source target
  error_iff : ∀ fault,
    compareDocuments strictness (.object source) (.object target) = .error fault ↔
      ∃ before name a after b, source = before ++ (name, a) :: after ∧
        target.lookup name = some b ∧ strictness.AgreeAtNames before target ∧
        PairFault (.name name) a b strictness fault
  /-- Where a name stands in the target has no say. -/
  target_order : ∀ others : List (String × Value), (target.map (·.1)).Nodup → target.Perm others →
    compareDocuments strictness (.object source) (.object others) =
      compareDocuments strictness (.object source) (.object target)

theorem membersCompared (strictness : Strictness) (source target : List (String × Value)) :
    MembersCompared strictness source target where
  ok_iff count := by
    rw [compareDocuments, Pair.compare_eq_ok_iff, Pair.length_ofDocuments, and_comm, eq_comm]
    exact and_congr_right fun _ => Pair.forall_mem_ofMembers_iff strictness source target
  error_iff fault := by
    rw [compareDocuments, Pair.ofDocuments, Pair.compare_eq_error_iff]
    constructor
    -- In front of the faulty pair the source may have names that make no pair at all.
    · rintro ⟨earlierPairs, pair, laterPairs, split, earlier, wrong⟩
      obtain ⟨start, rest, rfl, startPairs, restPairs⟩ := List.filterMap_eq_append_iff.mp split
      obtain ⟨skipped, ⟨name, a⟩, after, rfl, unshared, shared, -⟩ :=
        List.filterMap_eq_cons_iff.mp restPairs
      obtain ⟨b, found, rfl⟩ := Option.map_eq_some_iff.mp shared
      refine ⟨start ++ skipped, name, a, after, b, by rw [List.append_assoc], found, ?_, wrong⟩
      have pairs : Pair.ofMembers (start ++ skipped) target = earlierPairs := by
        have noMore := List.filterMap_eq_nil_iff.mpr unshared
        rw [Pair.ofMembers, List.filterMap_append, startPairs, noMore, List.append_nil]
      rw [← Pair.forall_mem_ofMembers_iff, pairs]
      exact earlier
    · rintro ⟨before, name, a, after, b, rfl, found, earlier, wrong⟩
      refine ⟨Pair.ofMembers before target, ⟨.name name, a, b⟩, Pair.ofMembers after target, ?_,
        (Pair.forall_mem_ofMembers_iff strictness before target).mpr earlier, wrong⟩
      simp [Pair.ofMembers, found]
  target_order others distinct reordered := by
    have same : Pair.ofMembers source others = Pair.ofMembers source target := by
      unfold Pair.ofMembers
      simp only [Value.lookup_eq_of_perm distinct reordered]
    rw [compareDocuments, compareDocuments, Pair.ofDocuments, Pair.ofDocuments, same]

/-- Comparisons of lists and of objects go through what the two share in the order of the source,
and end at the first two values that do not agree. -/
theorem compare_reports_first (strictness : Strictness) :
    (∀ source target, ItemsCompared strictness source target) ∧
      ∀ source target, MembersCompared strictness source target :=
  ⟨itemsCompared strictness, membersCompared strictness⟩

example :
    compareItems .stripped [.string "a b", .string "b", .number (.int 1)]
        [.string "ab", .string "x", .string "1"] =
      .error (.valueMismatch (.index 1) (.string "b") (.string "x")) ∧
    compareItems .stripped [.string "a b", .number (.int 1), .string "b"]
        [.string "ab", .null, .string "x"] =
      .error (.input (.notString .strippedComparison .number)) := ⟨rfl, rfl⟩

end Reconcile
