import Mathlib.Data.List.Enum
import Reconcile.Proofs.Conclusion
import Reconcile.Proofs.Fallible

namespace Reconcile

def Strictness.Agree : Strictness → Value → Value → Prop
  | .trimmed, source, target => Text.trim source.plain = Text.trim target.plain
  | .stripped, source, target =>
    ∃ sourceText targetText, source = .string sourceText ∧ target = .string targetText ∧
      Text.squeeze sourceText.toList = Text.squeeze targetText.toList

def Strictness.AgreeAtAll (strictness : Strictness) (source target : List Value) : Prop :=
  ∀ (index : Nat) sourceValue targetValue, source[index]? = some sourceValue →
    target[index]? = some targetValue → strictness.Agree sourceValue targetValue

def Strictness.AgreeAtNames (strictness : Strictness) (source target : List (String × Value)) :
    Prop :=
  ∀ name sourceValue targetValue, (name, sourceValue) ∈ source →
    target.lookup name = some targetValue → strictness.Agree sourceValue targetValue

/-- Whether two documents agree in all that they share: positions of two arrays, names of two
objects. A document that is no array or object is compared as a whole; an array or object has
nothing in common with a document of another kind. -/
def Value.AgreeInCommon : Value → Value → Prop
  | .array source, .array target => Strictness.stripped.AgreeAtAll source target
  | .object source, .object target =>
    ∀ name sourceValue targetValue, (name, sourceValue) ∈ source →
      target.lookup name = some targetValue → Strictness.stripped.Agree sourceValue targetValue
  | .array _, _ => True
  | .object _, _ => True
  | source, target => Strictness.stripped.Agree source target

namespace Directive

def RuleHolds (transforms : List Transform) (source target : Address) (rule : Rule)
    (sourceDocument targetDocument : Value) : Prop :=
  ∃ sourceValues targetValues, ∃ strictness : Strictness,
    source.extract transforms sourceDocument = .ok sourceValues ∧
    target.extract [] targetDocument = .ok targetValues ∧
    sourceValues.length = targetValues.length ∧
    (rule = .equal ∧ strictness = .trimmed ∨ rule = .equalStripped ∧ strictness = .stripped) ∧
    strictness.AgreeAtAll sourceValues targetValues

/-- Whether two documents are as a directive says. -/
def Holds (directive : Directive) (source target : Value) : Prop :=
  match directive.method with
  | .unsupported => True
  | .sameFile => ∀ rule ∈ directive.rules.rules, rule = .equal ∧ source.AgreeInCommon target
  | .byPath =>
    ∃ sourceAddress targetAddress,
      directive.source = some sourceAddress ∧ directive.target = some targetAddress ∧
      ∀ rule ∈ directive.rules.rules,
        RuleHolds directive.transforms sourceAddress targetAddress rule source target

end Directive

namespace Pair

theorem agree_eq_ok_true_iff (strictness : Strictness) (pair : Pair) :
    pair.agree strictness = .ok true ↔ strictness.Agree pair.source pair.target := by
  cases strictness with
  | trimmed => simp [agree, Strictness.Agree]
  | stripped =>
    cases source : pair.source <;> cases target : pair.target <;>
      simp [agree, Strictness.Agree, Operation.textOf, source, target, Bind.bind, Except.bind,
        Pure.pure, Except.pure]

theorem check_eq_ok_iff (strictness : Strictness) (pair : Pair) :
    pair.check strictness = .ok () ↔ strictness.Agree pair.source pair.target := by
  rw [← agree_eq_ok_true_iff, check]
  rcases pair.agree strictness with _ | _ | _ <;> simp

theorem compare_eq_ok_iff (strictness : Strictness) (pairs : List Pair) (count : Nat) :
    compare strictness pairs = .ok count ↔
      (∀ pair ∈ pairs, strictness.Agree pair.source pair.target) ∧ pairs.length = count := by
  simp only [compare, List.forM_eq_forM, Fallible.bind_eq_ok_iff, Unique.exists_iff,
    PUnit.default_eq_unit, Fallible.forM_eq_ok_iff, check_eq_ok_iff, Pure.pure, Except.pure,
    Except.ok.injEq]

theorem getElem?_ofItems_eq_some_iff (source target : List Value) (index : Nat) (pair : Pair) :
    (ofItems source target)[index]? = some pair ↔
      ∃ a b, source[index]? = some a ∧ target[index]? = some b ∧ ⟨.index index, a, b⟩ = pair := by
  simp only [ofItems, List.getElem?_map, List.getElem?_zipIdx, Option.map_map,
    Option.map_eq_some_iff, List.getElem?_zip_eq_some, Function.comp_apply, Nat.zero_add,
    Prod.exists]
  simp only [and_assoc]

theorem forall_mem_ofItems_iff (strictness : Strictness) (source target : List Value) :
    (∀ pair ∈ ofItems source target, strictness.Agree pair.source pair.target) ↔
      strictness.AgreeAtAll source target := by
  constructor
  · intro agree index a b atSource atTarget
    have here : (ofItems source target)[index]? = some ⟨.index index, a, b⟩ :=
      (getElem?_ofItems_eq_some_iff source target index _).mpr ⟨a, b, atSource, atTarget, rfl⟩
    exact agree _ (List.mem_of_getElem? here)
  · intro agree pair member
    obtain ⟨index, here⟩ := List.mem_iff_getElem?.mp member
    obtain ⟨a, b, atSource, atTarget, rfl⟩ :=
      (getElem?_ofItems_eq_some_iff source target index pair).mp here
    exact agree index a b atSource atTarget

theorem mem_ofMembers_iff (source target : List (String × Value)) (pair : Pair) :
    pair ∈ ofMembers source target ↔
      ∃ name sourceValue targetValue, (name, sourceValue) ∈ source ∧
        target.lookup name = some targetValue ∧ ⟨.name name, sourceValue, targetValue⟩ = pair := by
  simp [ofMembers, Option.map_eq_some_iff]

theorem forall_mem_ofMembers_iff (strictness : Strictness)
    (source target : List (String × Value)) :
    (∀ pair ∈ ofMembers source target, strictness.Agree pair.source pair.target) ↔
      strictness.AgreeAtNames source target := by
  simp only [mem_ofMembers_iff]
  constructor
  · intro agree name sourceValue targetValue inSource found
    exact agree ⟨.name name, sourceValue, targetValue⟩ ⟨_, _, _, inSource, found, rfl⟩
  · rintro agree _ ⟨name, sourceValue, targetValue, inSource, found, rfl⟩
    exact agree name sourceValue targetValue inSource found

theorem forall_mem_ofDocuments_iff (source target : Value) :
    (∀ pair ∈ ofDocuments source target, Strictness.stripped.Agree pair.source pair.target) ↔
      source.AgreeInCommon target := by
  cases source <;> cases target <;>
    simp only [ofDocuments, Value.AgreeInCommon, forall_mem_ofItems_iff, List.mem_singleton,
      forall_eq, List.not_mem_nil, false_implies, implies_true]
  case object.object source target => exact forall_mem_ofMembers_iff .stripped source target

end Pair

def Verdict.Positive (verdict : Verdict) : Prop :=
  verdict.fatal? = none ∧ verdict.reported? = none

theorem Verdict.positive_ofOutcome_iff (policy : Policy) (outcome : Except Fault Nat) :
    (ofOutcome policy outcome).Positive ↔ ∃ count, outcome = .ok count := by
  cases outcome with
  | ok count => simp [ofOutcome, Positive, fatal?, reported?]
  | error fault => cases tolerated : policy.tolerates fault <;>
      simp [ofOutcome, Positive, fatal?, reported?, tolerated]

theorem Rule.strictness?_eq_some_iff (rule : Rule) (strictness : Strictness) :
    rule.strictness? = some strictness ↔
      rule = .equal ∧ strictness = .trimmed ∨ rule = .equalStripped ∧ strictness = .stripped := by
  cases rule <;> cases strictness <;> simp [strictness?]

theorem compareItems_eq_ok_iff (strictness : Strictness) (source target : List Value)
    (count : Nat) :
    compareItems strictness source target = .ok count ↔
      strictness.AgreeAtAll source target ∧ min source.length target.length = count := by
  simp only [compareItems, Pair.compare_eq_ok_iff, Pair.forall_mem_ofItems_iff]
  simp [Pair.ofItems]

namespace Directive

theorem checkByPath_eq_ok_iff (transforms : List Transform) (source target : Address)
    (rule : Rule) (sourceDocument targetDocument : Value) (count : Nat) :
    checkByPath transforms source target rule sourceDocument targetDocument = .ok count ↔
      ∃ sourceValues targetValues, ∃ strictness : Strictness,
        source.extract transforms sourceDocument = .ok sourceValues ∧
        target.extract [] targetDocument = .ok targetValues ∧
        rule.strictness? = some strictness ∧ strictness.AgreeAtAll sourceValues targetValues ∧
        sourceValues.length = count ∧ targetValues.length = count := by
  simp only [checkByPath, Fallible.bind_eq_ok_iff]
  constructor
  · rintro ⟨sourceValues, atSource, targetValues, atTarget, compared⟩
    split at compared
    · cases compared
    · rename_i sameLength
      cases known : rule.strictness? with
      | none => simp [known] at compared
      | some strictness =>
        simp only [known, compareItems_eq_ok_iff] at compared
        exact ⟨sourceValues, targetValues, strictness, atSource, atTarget, rfl, compared.1,
          by omega, by omega⟩
  · rintro ⟨sourceValues, targetValues, strictness, atSource, atTarget, known, agree, rfl, same⟩
    refine ⟨sourceValues, atSource, targetValues, atTarget, ?_⟩
    simp only [same, known, ne_eq, not_true, if_false]
    exact (compareItems_eq_ok_iff _ _ _ _).mpr ⟨agree, by omega⟩

theorem checkByPath_succeeds_iff (transforms : List Transform) (source target : Address)
    (rule : Rule) (sourceDocument targetDocument : Value) :
    (∃ count,
      checkByPath transforms source target rule sourceDocument targetDocument = .ok count) ↔
      RuleHolds transforms source target rule sourceDocument targetDocument := by
  simp only [checkByPath_eq_ok_iff, RuleHolds, ← Rule.strictness?_eq_some_iff]
  constructor
  · rintro ⟨count, sourceValues, targetValues, strictness, atSource, atTarget, known, agree,
      rfl, same⟩
    exact ⟨sourceValues, targetValues, strictness, atSource, atTarget, same.symm, known, agree⟩
  · rintro ⟨sourceValues, targetValues, strictness, atSource, atTarget, same, known, agree⟩
    exact ⟨_, sourceValues, targetValues, strictness, atSource, atTarget, known, agree, rfl,
      same.symm⟩

theorem checkFiles_succeeds_iff (rule : Rule) (source target : Value) :
    (∃ count, checkFiles rule source target = .ok count) ↔
      rule = .equal ∧ source.AgreeInCommon target := by
  cases rule <;>
    simp [checkFiles, compareDocuments, Pair.compare_eq_ok_iff, Pair.forall_mem_ofDocuments_iff]

theorem verdicts_positive_iff (directive : Directive) (policy : Policy) (pipeline : String)
    (index : Nat) (source target : Value) :
    (∀ verdict ∈ directive.verdicts policy pipeline index source target, verdict.Positive) ↔
      directive.Holds source target := by
  unfold verdicts Holds
  cases directive.method with
  | unsupported => simp [Verdict.Positive, Verdict.fatal?, Verdict.reported?]
  | sameFile =>
    simp only [List.forall_mem_map, Verdict.positive_ofOutcome_iff, checkFiles_succeeds_iff]
  | byPath =>
    cases source : directive.source with
    | none =>
      simp [addresses, source, Verdict.Positive, Verdict.fatal?]
    | some sourceAddress =>
      cases target : directive.target with
      | none => simp [addresses, source, target, Verdict.Positive, Verdict.fatal?]
      | some targetAddress =>
        simp [addresses, source, target, Verdict.positive_ofOutcome_iff,
          checkByPath_succeeds_iff]

end Directive

theorem MappingSource.directives_eq_ok_iff (source : MappingSource) (files : Files)
    (pipeline : String) (directives : List Directive) :
    source.directives files pipeline = .ok directives ↔
      ∃ mapping, source.load files pipeline = .ok mapping ∧
        mapping.directives? pipeline = some directives := by
  simp only [MappingSource.directives, Fallible.bind_eq_ok_iff]
  refine exists_congr fun mapping => and_congr_right fun _ => ?_
  cases mapping.directives? pipeline <;> simp

namespace Engine

theorem pipelineVerdicts_positive_iff (policy : Policy) (request : Request)
    (directives : List Directive) :
    (∀ verdict ∈ pipelineVerdicts policy request directives, verdict.Positive) ↔
      ∀ directive ∈ directives, directive.Holds request.source request.target := by
  simp only [pipelineVerdicts, List.mem_flatMap, forall_exists_index, and_imp]
  constructor
  · intro positive directive member
    obtain ⟨index, found⟩ := List.mem_iff_getElem?.mp member
    rw [← directive.verdicts_positive_iff policy request.pipeline index]
    intro verdict here
    exact positive verdict (directive, index) (List.mk_mem_zipIdx_iff_getElem?.mpr found) here
  · intro holds verdict numbered member here
    have held := holds _ (List.fst_mem_of_mem_zipIdx member)
    rw [← Directive.verdicts_positive_iff] at held
    exact held verdict here

/-- A run completes if and only if its mapping defines the pipeline and all directives hold. -/
theorem evaluate_succeeds_iff_holds (engine : Engine) (files : Files) (request : Request) :
    (∃ summary, engine.evaluate files request = .ok summary) ↔
      ∃ mapping directives,
        engine.mappings.load files request.pipeline = .ok mapping ∧
        mapping.directives? request.pipeline = some directives ∧
        ∀ directive ∈ directives, directive.Holds request.source request.target := by
  have positive : (∃ summary, engine.evaluate files request = .ok summary) ↔
      ∀ verdict ∈ engine.verdicts files request, verdict.Positive := by
    simp [evaluate_eq_ok_iff, Verdict.firstFatal?_eq_none_iff, Verdict.faults_eq_nil_iff,
      Verdict.Positive, forall_and]
  have defined : (∃ mapping directives,
        engine.mappings.load files request.pipeline = .ok mapping ∧
        mapping.directives? request.pipeline = some directives ∧
        ∀ directive ∈ directives, directive.Holds request.source request.target) ↔
      ∃ directives, engine.mappings.directives files request.pipeline = .ok directives ∧
        ∀ directive ∈ directives, directive.Holds request.source request.target := by
    simp only [MappingSource.directives_eq_ok_iff]
    constructor
    · rintro ⟨mapping, directives, loaded, found, holds⟩
      exact ⟨directives, ⟨mapping, loaded, found⟩, holds⟩
    · rintro ⟨directives, ⟨mapping, loaded, found⟩, holds⟩
      exact ⟨mapping, directives, loaded, found, holds⟩
  rw [positive, defined, verdicts]
  cases engine.mappings.directives files request.pipeline with
  | ok directives =>
    simp only [pipelineVerdicts_positive_iff, Except.ok.injEq, exists_eq_left']
  | error cause => simp [Verdict.Positive, Verdict.fatal?]

end Engine

end Reconcile
