import Reconcile.Proofs.Channel
import Reconcile.Proofs.Comparison.FirstFault
import Reconcile.Proofs.Text.Pieces

namespace Reconcile

namespace Text

theorem squeeze_append (before after : List Char) :
    squeeze (before ++ after) = squeeze before ++ squeeze after := List.filter_append before after

theorem squeeze_of_blank {blanks : List Char} (all : ∀ c ∈ blanks, isBlank c = true) :
    squeeze blanks = [] := by
  rw [squeeze, List.filter_eq_nil_iff]
  intro c member
  simp [all c member]

theorem squeeze_trimLeft (text : List Char) : squeeze (trimLeft text) = squeeze text := by
  obtain ⟨split, blanks, -⟩ := of_span (List.span_eq_takeWhile_dropWhile isBlank text)
  calc squeeze (trimLeft text)
      = squeeze (text.takeWhile isBlank) ++ squeeze (trimLeft text) := by
        rw [squeeze_of_blank blanks, List.nil_append]
    _ = squeeze text := by rw [← squeeze_append, trimLeft, ← split]

theorem squeeze_trimRight (text : List Char) : squeeze (trimRight text) = squeeze text := by
  obtain ⟨blanks, split, all⟩ := trimRight_takes text
  calc squeeze (trimRight text)
      = squeeze (trimRight text) ++ squeeze blanks := by
        rw [squeeze_of_blank all, List.append_nil]
    _ = squeeze text := by rw [← squeeze_append, ← split]

theorem squeeze_trim (text : List Char) : squeeze (trim text) = squeeze text := by
  rw [trim, squeeze_trimRight, squeeze_trimLeft]

end Text

def Value.AllStrings (values : List Value) : Prop := ∀ value ∈ values, value.kind = .string

theorem Value.allStrings_map (texts : List String) : AllStrings (texts.map .string) :=
  List.forall_mem_map.mpr fun _ _ => rfl

theorem Strictness.Agree.stripped {source target : Value} (sourceString : source.kind = .string)
    (targetString : target.kind = .string) (agree : Strictness.trimmed.Agree source target) :
    Strictness.stripped.Agree source target := by
  obtain ⟨sourceText, rfl⟩ := source.kind_eq_string_iff.mp sourceString
  obtain ⟨targetText, rfl⟩ := target.kind_eq_string_iff.mp targetString
  have same : Text.trim sourceText.toList = Text.trim targetText.toList := agree
  refine ⟨sourceText, targetText, rfl, rfl, ?_⟩
  rw [← Text.squeeze_trim, same, Text.squeeze_trim]

section Lists

variable {source target : List Value} (sourceStrings : Value.AllStrings source)
  (targetStrings : Value.AllStrings target)

include sourceStrings targetStrings

theorem Strictness.AgreeAtAll.stripped (agree : Strictness.trimmed.AgreeAtAll source target) :
    Strictness.stripped.AgreeAtAll source target := by
  intro index a b atSource atTarget
  exact (agree index a b atSource atTarget).stripped
    (sourceStrings a (List.mem_of_getElem? atSource))
    (targetStrings b (List.mem_of_getElem? atTarget))

theorem compareItems_stripped_of_trimmed {count : Nat}
    (compared : compareItems .trimmed source target = .ok count) :
    compareItems .stripped source target = .ok count := by
  rw [compareItems_eq_ok_iff] at compared ⊢
  exact ⟨compared.1.stripped sourceStrings targetStrings, compared.2⟩

theorem stripped_fault_not_earlier {fault : Fault}
    (failed : compareItems .stripped source target = .error fault) :
    ∃ index a b earlier c d, fault = .valueMismatch (.index index) a b ∧ earlier ≤ index ∧
      compareItems .trimmed source target = .error (.valueMismatch (.index earlier) c d) := by
  obtain ⟨index, a, b, atSource, atTarget, -, wrong⟩ :=
    ((itemsCompared .stripped source target).error_iff fault).mp failed
  have aString := sourceStrings a (List.mem_of_getElem? atSource)
  have bString := targetStrings b (List.mem_of_getElem? atTarget)
  cases wrong with
  | sourceNoString other => exact absurd aString other
  | targetNoString _ other => exact absurd bString other
  | strippedDiffer aText bText differ =>
    have disagree : ¬ Strictness.trimmed.Agree a b := by
      intro agree
      obtain ⟨_, _, rfl, rfl, same⟩ := agree.stripped aString bString
      cases aText
      cases bText
      exact differ same
    cases trimmed : compareItems .trimmed source target with
    | ok count =>
      have agree := ((compareItems_eq_ok_iff _ _ _ _).mp trimmed).1
      exact absurd (agree index a b atSource atTarget) disagree
    | error first =>
      obtain ⟨earlier, c, d, -, -, before, wrongFirst⟩ :=
        ((itemsCompared .trimmed source target).error_iff first).mp trimmed
      cases wrongFirst
      refine ⟨index, a, b, earlier, c, d, rfl, ?_, rfl⟩
      by_contra later
      have inside : index < earlier := by omega
      exact disagree (before index a b (by rw [List.getElem?_take, if_pos inside, atSource])
        (by rw [List.getElem?_take, if_pos inside, atTarget]))

end Lists

inductive Rule.Loosened : Rule → Rule → Prop
  | same (rule : Rule) : Loosened rule rule
  | stripped : Loosened .equal .equalStripped

namespace Directive

/-- Whatever the two addresses of a directive find are strings. -/
def FindsStrings (directive : Directive) (source target : Value) : Prop :=
  (∀ address ∈ directive.source, ∀ values,
    address.extract directive.transforms source = .ok values → Value.AllStrings values) ∧
  ∀ address ∈ directive.target, ∀ values,
    address.extract [] target = .ok values → Value.AllStrings values

/-- Directives that differ at most in their rules, some of which may be loosened if they compare
strings by path. -/
structure Loosened (source target : Value) (first second : Directive) : Prop where
  method_eq : first.method = second.method
  source_eq : first.source = second.source
  target_eq : first.target = second.target
  transforms_eq : first.transforms = second.transforms
  rules : List.Forall₂ Rule.Loosened first.rules.rules second.rules.rules
  strings : first.rules.rules ≠ second.rules.rules →
    first.method = .byPath ∧ first.FindsStrings source target

variable {first second : Directive} {sourceDocument targetDocument : Value}

theorem checkByPath_eq_of_loosened {source target : Address} {rule other : Rule}
    (atSource : first.source = some source) (atTarget : first.target = some target)
    (strings : first.FindsStrings sourceDocument targetDocument) (loosened : rule.Loosened other)
    (holds : RuleHolds first.transforms source target rule sourceDocument targetDocument) :
    checkByPath first.transforms source target rule sourceDocument targetDocument =
      checkByPath first.transforms source target other sourceDocument targetDocument := by
  cases loosened with
  | same => rfl
  | stripped =>
    obtain ⟨count, passed⟩ := (checkByPath_succeeds_iff _ _ _ _ _ _).mpr holds
    obtain ⟨sourceValues, targetValues, strictness, found, foundToo, trims, agree, lengths⟩ :=
      (checkByPath_eq_ok_iff _ _ _ _ _ _ _).mp passed
    cases trims
    have stripped := agree.stripped (strings.1 source atSource sourceValues found)
      (strings.2 target atTarget targetValues foundToo)
    rw [passed, eq_comm, checkByPath_eq_ok_iff]
    exact ⟨sourceValues, targetValues, .stripped, found, foundToo, rfl, stripped, lengths⟩

theorem Loosened.verdicts_eq (loosened : first.Loosened sourceDocument targetDocument second)
    (holds : first.Holds sourceDocument targetDocument) (policy : Policy) (pipeline : String)
    (index : Nat) :
    first.verdicts policy pipeline index sourceDocument targetDocument =
      second.verdicts policy pipeline index sourceDocument targetDocument := by
  unfold verdicts addresses
  rw [← loosened.method_eq, ← loosened.source_eq, ← loosened.target_eq, ← loosened.transforms_eq]
  by_cases unchanged : first.rules.rules = second.rules.rules
  · rw [unchanged]
  · obtain ⟨byPath, strings⟩ := loosened.strings unchanged
    simp only [Holds, byPath] at holds
    obtain ⟨source, target, atSource, atTarget, rulesHold⟩ := holds
    simp only [byPath, atSource, atTarget]
    have rules := loosened.rules
    generalize first.rules.rules = firstRules at rules rulesHold
    generalize second.rules.rules = secondRules at rules
    induction rules with
    | nil => rfl
    | cons head _ ih =>
      rw [List.forall_mem_cons] at rulesHold
      rw [List.map_cons, List.map_cons, ih rulesHold.2,
        checkByPath_eq_of_loosened atSource atTarget strings head rulesHold.1]

end Directive

namespace Engine

theorem pipelineVerdicts_eq_of_loosened {request : Request} {directives others : List Directive}
    (loosened : List.Forall₂ (Directive.Loosened request.source request.target) directives others)
    (holds : ∀ directive ∈ directives, directive.Holds request.source request.target)
    (policy : Policy) :
    pipelineVerdicts policy request directives = pipelineVerdicts policy request others := by
  apply pipelineVerdicts_congr
  induction loosened with
  | nil => exact .nil
  | cons head _ ih =>
    rw [List.forall_mem_cons] at holds
    exact .cons (head.verdicts_eq holds.1 policy request.pipeline) (ih holds.2)

theorem sameRun_of_loosened {engine : Engine} {mappings : MappingSource} {files : Files}
    {request : Request} {directives others : List Directive} {result : Summary}
    (defined : engine.mappings.directives files request.pipeline = .ok directives)
    (definedToo : mappings.directives files request.pipeline = .ok others)
    (loosened :
      List.Forall₂ (Directive.Loosened request.source request.target) directives others)
    (passed : engine.evaluate files request = .ok result) :
    SameRun engine { engine with mappings } files request := by
  obtain ⟨noneFatal, noneReported, -⟩ := (evaluate_eq_ok_iff _ _ _ _).mp passed
  rw [Verdict.firstFatal?_eq_none_iff] at noneFatal
  rw [Verdict.faults_eq_nil_iff] at noneReported
  have ran : engine.verdicts files request = pipelineVerdicts engine.policy request directives := by
    simp only [verdicts, defined]
  have holds := (pipelineVerdicts_positive_iff engine.policy request directives).mp
    fun verdict member =>
      ⟨noneFatal verdict (ran ▸ member), noneReported verdict (ran ▸ member)⟩
  have same := pipelineVerdicts_eq_of_loosened loosened holds engine.policy
  apply SameRun.of_verdicts
  · simp only [verdicts, defined, definedToo, same]
  · simp only [summary, verdicts, defined, definedToo, same, loosened.length_eq]

/-- On strings the comparison that strips accepts what the one that trims accepts, and stops no
earlier. So a run that passes is the same run with rules that strip in place of rules that trim. -/
theorem stripping_weakens_trimming :
    (∀ source target : List Value, Value.AllStrings source → Value.AllStrings target →
      (∀ count, compareItems .trimmed source target = .ok count →
        compareItems .stripped source target = .ok count) ∧
      ∀ fault, compareItems .stripped source target = .error fault →
        ∃ index a b earlier c d, fault = .valueMismatch (.index index) a b ∧ earlier ≤ index ∧
          compareItems .trimmed source target = .error (.valueMismatch (.index earlier) c d)) ∧
    ∀ (engine : Engine) (mappings : MappingSource) (files : Files) (request : Request)
      (directives others : List Directive) (summary : Summary),
      engine.mappings.directives files request.pipeline = .ok directives →
      mappings.directives files request.pipeline = .ok others →
      List.Forall₂ (Directive.Loosened request.source request.target) directives others →
      engine.evaluate files request = .ok summary →
      evaluate { engine with mappings } files request = .ok summary ∧
        ∀ channel, execute { engine with mappings } files request channel =
          engine.execute files request channel := by
  constructor
  · intro source target sourceStrings targetStrings
    exact ⟨fun _ => compareItems_stripped_of_trimmed sourceStrings targetStrings,
      fun _ => stripped_fault_not_earlier sourceStrings targetStrings⟩
  · intro engine mappings files request directives others summary defined definedToo loosened passed
    have same := sameRun_of_loosened defined definedToo loosened passed
    exact ⟨same.evaluate_eq ▸ passed, fun channel => (same.execute_eq channel).symm⟩

end Engine

def itemsMapping (rule : Rule) : Mapping where
  pipelines := [("p", [
    { method := .sameFile, source := none, target := none, rules := .single .equal,
      transforms := [] },
    { method := .byPath, source := some ⟨"$[*]", .query⟩, target := some ⟨"$[*]", .query⟩,
      rules := .sequence [.equal, rule], transforms := [] }])]

def spacedItems : Request where
  pipeline := "p"
  source := .array [.string " New York\t", .string "Bern"]
  target := .array [.string "New York", .string "\nBern"]

theorem spacedItems_loosened :
    List.Forall₂ (Directive.Loosened spacedItems.source spacedItems.target)
      ((itemsMapping .equal).pipelines.flatMap (·.2))
      ((itemsMapping .equalStripped).pipelines.flatMap (·.2)) := by
  refine .cons ⟨rfl, rfl, rfl, rfl, .cons (.same _) .nil, fun changed => absurd rfl changed⟩
    (.cons ⟨rfl, rfl, rfl, rfl, .cons (.same _) (.cons .stripped .nil), fun _ => ⟨rfl, ?_, ?_⟩⟩
      .nil)
  · rintro address ⟨⟩ values ⟨⟩
    exact Value.allStrings_map [" New York\t", "Bern"]
  · rintro address ⟨⟩ values ⟨⟩
    exact Value.allStrings_map ["New York", "\nBern"]

theorem spacedItems_pass_stripped :
    compareItems .stripped [.string "a b", .string "x"] [.string "ab", .string "y"] =
        .error (.valueMismatch (.index 1) (.string "x") (.string "y")) ∧
      (∃ index a b earlier c d,
        Fault.valueMismatch (.index 1) (.string "x") (.string "y") =
          .valueMismatch (.index index) a b ∧ earlier ≤ index ∧
        compareItems .trimmed [.string "a b", .string "x"] [.string "ab", .string "y"] =
          .error (.valueMismatch (.index earlier) c d)) ∧
      ∃ summary,
        Engine.evaluate ⟨.memory (itemsMapping .equal), .failFast⟩ noFiles spacedItems =
            .ok summary ∧
          Engine.evaluate ⟨.memory (itemsMapping .equalStripped), .failFast⟩ noFiles spacedItems =
            .ok summary ∧
          summary.compared = 6 := by
  have failed : compareItems .stripped [.string "a b", .string "x"] [.string "ab", .string "y"] =
      .error (.valueMismatch (.index 1) (.string "x") (.string "y")) := rfl
  have passed :
      Engine.evaluate ⟨.memory (itemsMapping .equal), .failFast⟩ noFiles spacedItems = .ok _ := rfl
  obtain ⟨ofLists, ofRuns⟩ := Engine.stripping_weakens_trimming
  refine ⟨failed, ?_, _, passed, ?_, rfl⟩
  · exact (ofLists _ _ (Value.allStrings_map ["a b", "x"]) (Value.allStrings_map ["ab", "y"])).2 _
      failed
  · exact (ofRuns _ (.memory (itemsMapping .equalStripped)) _ _ _ _ _ rfl rfl spacedItems_loosened
      passed).1

end Reconcile
