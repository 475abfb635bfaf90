import Mathlib.Data.List.Forall2
import Reconcile.Proofs.Channel
import Reconcile.Proofs.Sources

namespace Reconcile

theorem Address.extract_of_kind_ne_field {address : Address} (other : address.kind ≠ .field)
    (transforms others : List Transform) (document : Value) :
    address.extract transforms document = address.extract others document := by
  unfold extract
  cases kind : address.kind with
  | field => exact absurd kind other
  | query => rfl
  | unrecognized suffix => rfl

namespace Directive

/-- Whether there are values that the transforms of a directive work on. -/
def UsesTransforms (directive : Directive) : Prop :=
  directive.method = .byPath ∧
    ∃ address, directive.source = some address ∧ address.kind = .field

/-- Directives that differ at most in transforms that have nothing to work on. -/
structure SameButIdle (first second : Directive) : Prop where
  method_eq : first.method = second.method
  source_eq : first.source = second.source
  target_eq : first.target = second.target
  rules_eq : first.rules = second.rules
  transforms_eq : first.UsesTransforms → first.transforms = second.transforms

variable {first second : Directive}

theorem SameButIdle.extract_eq (same : first.SameButIdle second) (byPath : first.method = .byPath)
    {address : Address} (atSource : first.source = some address) (document : Value) :
    address.extract first.transforms document = address.extract second.transforms document := by
  by_cases kind : address.kind = .field
  · rw [same.transforms_eq ⟨byPath, address, atSource, kind⟩]
  · exact address.extract_of_kind_ne_field kind _ _ document

def compareFound (source : Address) (rule : Rule)
    (sourceFound targetFound : Except Fault (List Value)) : Except Fault Nat := do
  let sourceValues ← sourceFound
  let targetValues ← targetFound
  if sourceValues.length ≠ targetValues.length then
    .error (.lengthMismatch source sourceValues.length targetValues.length)
  else match rule.strictness? with
    | some strictness => compareItems strictness sourceValues targetValues
    | none => .error (.unknownRule rule.name)

theorem checkByPath_eq (transforms : List Transform) (source target : Address) (rule : Rule)
    (sourceDocument targetDocument : Value) :
    checkByPath transforms source target rule sourceDocument targetDocument =
      compareFound source rule (source.extract transforms sourceDocument)
        (target.extract [] targetDocument) := rfl

theorem SameButIdle.verdicts_eq (same : first.SameButIdle second) (policy : Policy)
    (pipeline : String) (index : Nat) (source target : Value) :
    first.verdicts policy pipeline index source target =
      second.verdicts policy pipeline index source target := by
  unfold verdicts addresses
  rw [← same.method_eq, ← same.source_eq, ← same.target_eq, ← same.rules_eq]
  cases byPath : first.method with
  | unsupported => rfl
  | sameFile => rfl
  | byPath =>
    cases atSource : first.source with
    | none => rfl
    | some sourceAddress =>
      cases first.target with
      | none => rfl
      | some targetAddress =>
        simp only [checkByPath_eq, same.extract_eq byPath atSource source]

end Directive

def Mapping.SameButIdle (first second : Mapping) : Prop :=
  List.Forall₂
    (fun one other => one.1 = other.1 ∧ List.Forall₂ Directive.SameButIdle one.2 other.2)
    first.pipelines second.pipelines

theorem Mapping.SameButIdle.directives? {first second : Mapping} (same : first.SameButIdle second)
    (pipeline : String) :
    first.directives? pipeline = none ∧ second.directives? pipeline = none ∨
      ∃ directives others, first.directives? pipeline = some directives ∧
        second.directives? pipeline = some others ∧
        List.Forall₂ Directive.SameButIdle directives others := by
  unfold Mapping.directives?
  unfold Mapping.SameButIdle at same
  generalize first.pipelines = pipelines at same ⊢
  generalize second.pipelines = otherPipelines at same ⊢
  induction same with
  | nil => exact .inl ⟨rfl, rfl⟩
  | @cons one other _ _ head _ ih =>
    obtain ⟨name, directives⟩ := one
    obtain ⟨_, others⟩ := other
    obtain ⟨rfl, sameDirectives⟩ := head
    by_cases here : pipeline = name
    · subst here
      exact .inr ⟨directives, others, by simp, by simp, sameDirectives⟩
    · simpa [List.lookup_cons, beq_eq_false_iff_ne.mpr here] using ih

namespace Engine

theorem pipelineVerdicts_eq_of_sameButIdle {directives others : List Directive}
    (same : List.Forall₂ Directive.SameButIdle directives others) (policy : Policy)
    (request : Request) :
    pipelineVerdicts policy request directives = pipelineVerdicts policy request others :=
  pipelineVerdicts_congr (same.imp fun _ _ alike index =>
    alike.verdicts_eq policy request.pipeline index request.source request.target)

theorem sameRun_of_sameButIdle {first second : Mapping} (same : first.SameButIdle second)
    (policy : Policy) (files : Files) (request : Request) :
    SameRun ⟨.memory first, policy⟩ ⟨.memory second, policy⟩ files request := by
  rcases same.directives? request.pipeline with
    ⟨missing, missingToo⟩ | ⟨directives, others, found, foundToo, sameDirectives⟩
  · apply SameRun.of_directives
    rw [MappingSource.directives_memory_of_missing missing,
      MappingSource.directives_memory_of_missing missingToo]
  · have defined := MappingSource.directives_memory_of_defined found files
    have definedToo := MappingSource.directives_memory_of_defined foundToo files
    have sameVerdicts := pipelineVerdicts_eq_of_sameButIdle sameDirectives policy request
    apply SameRun.of_verdicts
    · simp only [verdicts, defined, definedToo, sameVerdicts]
    · simp only [summary, verdicts, defined, definedToo, sameVerdicts, sameDirectives.length_eq]

/-- Transforms that work on no field of the source have no say in any run. Those that do have none
in the values of the target, which a comparison by path takes as its address finds them. -/
theorem transforms_reach_source_fields_only (policy : Policy) (files : Files) (request : Request) :
    (∀ first second : Mapping, first.SameButIdle second →
      SameRun ⟨.memory first, policy⟩ ⟨.memory second, policy⟩ files request) ∧
    ∀ (directive : Directive) (source target : Address), directive.method = .byPath →
      directive.source = some source → directive.target = some target →
      ∀ (transforms : List Transform) (index : Nat) (progress : Progress),
        { directive with transforms }.run policy request.pipeline index request.source
            request.target progress =
          progress.checkRules policy
            (fun rule => Directive.compareFound source rule
              (source.extract transforms request.source) (target.extract [] request.target))
            directive.rules.rules := by
  refine ⟨fun first second same => sameRun_of_sameButIdle same policy files request, ?_⟩
  intro directive source target byPath atSource atTarget transforms index progress
  simp only [Directive.run, byPath, Directive.addresses, atSource, atTarget, Except.mapError,
    Fallible.ok_bind, Directive.checkByPath_eq]

end Engine

def idleMapping (transforms : List Transform) : Mapping where
  pipelines := [("p", [
    { method := .sameFile, source := none, target := none, rules := .single .equal, transforms },
    { method := .unsupported, source := none, target := none, rules := .single .equal, transforms },
    { method := .byPath, source := some ⟨"$[*].hours", .query⟩, target := some ⟨"hours", .field⟩,
      rules := .sequence [.equal], transforms }])]

theorem idleMapping_sameButIdle (transforms others : List Transform) :
    (idleMapping transforms).SameButIdle (idleMapping others) := by
  refine .cons ⟨rfl, .cons ⟨rfl, rfl, rfl, rfl, ?_⟩ (.cons ⟨rfl, rfl, rfl, rfl, ?_⟩
    (.cons ⟨rfl, rfl, rfl, rfl, ?_⟩ .nil))⟩ .nil <;> simp [Directive.UsesTransforms]

def hoursRequest : Request where
  pipeline := "p"
  source := .array [.object [("hours", .string "Mon 9am-5pm")]]
  target := .array [.object [("hours", .string "Mon 9am-5pm")]]

theorem idleMapping_sameRun :
    (idleMapping []).SameButIdle (idleMapping [.timeFormat .storeHours]) ∧
      Engine.SameRun ⟨.memory (idleMapping []), .failFast⟩
        ⟨.memory (idleMapping [.timeFormat .storeHours]), .failFast⟩ noFiles hoursRequest :=
  ⟨idleMapping_sameButIdle _ _,
    (Engine.transforms_reach_source_fields_only .failFast noFiles hoursRequest).1 _ _
      (idleMapping_sameButIdle _ _)⟩

end Reconcile
