import Reconcile.Proofs.Channel
import Reconcile.Proofs.Outcome

namespace Reconcile

namespace Directive

/-- A rule after which a run goes on: it passes, or its fault is one that is reported. -/
def RuleGoesOn (directive : Directive) (policy : Policy) (source target : Value) (rule : Rule) :
    Prop :=
  (∃ pairs, directive.Passes rule source target pairs) ∨
    ∃ fault, directive.RuleFault rule source target fault ∧ policy.tolerates fault = true

def GoesOn (directive : Directive) (policy : Policy) (source target : Value) : Prop :=
  directive.method ≠ .unsupported →
    (∀ side, ¬ directive.Lacks side) ∧
    ∀ rule ∈ directive.rules.rules, directive.RuleGoesOn policy source target rule

/-- How a directive, number `index` of its pipeline, ends a run: it lacks an address, or one of its
rules has a fault that the policy does not tolerate. `checked` are the rules up to that one. -/
inductive Ends (directive : Directive) (policy : Policy) (pipeline : String) (index : Nat)
    (source target : Value) : (checked : List Rule) → Fault → Prop
  | lacks {side : Side} (lacking : directive.Lacks side) :
      Ends directive policy pipeline index source target []
        (.configuration (.missingAddress pipeline index side))
  | rule {before : List Rule} {rule : Rule} {fault : Fault}
      (present : ∀ side, ¬ directive.Lacks side)
      (earlier : ∀ other ∈ before, directive.RuleGoesOn policy source target other)
      (wrong : directive.RuleFault rule source target fault)
      (fatal : policy.tolerates fault = false) :
      Ends directive policy pipeline index source target (before ++ [rule]) fault

end Directive

theorem Verdict.fatal?_ofOutcome_eq_some_iff (policy : Policy) (outcome : Except Fault Nat)
    (fault : Fault) :
    (ofOutcome policy outcome).fatal? = some fault ↔
      outcome = .error fault ∧ policy.tolerates fault = false := by
  cases outcome with
  | ok pairs => simp [ofOutcome, fatal?]
  | error cause =>
    cases tolerated : policy.tolerates cause <;>
      simp only [ofOutcome, fatal?, tolerated, Bool.false_eq_true, if_false, if_true,
        Option.some.injEq, Except.error.injEq, reduceCtorEq, false_iff, not_and]
    · exact ⟨fun same => ⟨same, same ▸ tolerated⟩, fun ended => ended.1⟩
    · rintro rfl
      simp [tolerated]

namespace Directive

variable {directive : Directive} {policy : Policy} {pipeline : String} {index : Nat}
  {source target : Value}

theorem Ends.withRules {checked : List Rule} {fault : Fault}
    (ends : directive.Ends policy pipeline index source target checked fault) (rules : RuleSet) :
    Ends { directive with rules } policy pipeline index source target checked fault := by
  cases ends with
  | @lacks side lacking =>
    have still : Lacks { directive with rules } side := by cases side <;> exact lacking
    exact .lacks still
  | rule present earlier wrong fatal =>
    exact .rule (fun side lacking => present side (by cases side <;> exact lacking)) earlier wrong
      fatal

variable (policy) in
theorem ruleGoesOn_iff {rule : Rule} {outcome : Except Fault Nat}
    (found : ∀ other, directive.Finds rule source target other ↔ outcome = other) :
    directive.RuleGoesOn policy source target rule ↔
      (Verdict.ofOutcome policy outcome).fatal? = none := by
  have passes (pairs : Nat) : directive.Passes rule source target pairs ↔ outcome = .ok pairs :=
    found (.ok pairs)
  have wrong (fault : Fault) :
      directive.RuleFault rule source target fault ↔ outcome = .error fault :=
    found (.error fault)
  simp only [RuleGoesOn, passes, wrong]
  cases outcome with
  | ok pairs => simp [Verdict.ofOutcome, Verdict.fatal?]
  | error fault =>
    cases tolerated : policy.tolerates fault <;> simp [Verdict.ofOutcome, Verdict.fatal?, tolerated]

theorem firstFatal?_verdicts_eq_none_iff :
    Verdict.firstFatal? (directive.verdicts policy pipeline index source target) = none ↔
      directive.GoesOn policy source target := by
  rw [Verdict.firstFatal?_eq_none_iff]
  rcases directive.verdicts_cases policy pipeline index source target with
    ⟨unsupported, verdicts⟩ | ⟨side, lacking, verdicts⟩ | ⟨supported, present, check, finds, verdicts⟩
  · simp [verdicts, GoesOn, unsupported, Verdict.fatal?]
  · have supported : directive.method ≠ .unsupported := by
      cases side <;> simp [lacking.1]
    simp only [verdicts, List.mem_singleton, forall_eq, Verdict.fatal?, reduceCtorEq, false_iff]
    exact fun goesOn => (goesOn supported).1 side lacking
  · simp [verdicts, GoesOn, supported, present, ruleGoesOn_iff policy (finds _)]

theorem firstFatal?_verdicts_eq_some_iff {fault : Fault} :
    Verdict.firstFatal? (directive.verdicts policy pipeline index source target) = some fault ↔
      ∃ checked, checked <+: directive.rules.rules ∧
        directive.Ends policy pipeline index source target checked fault := by
  rcases directive.verdicts_cases policy pipeline index source target with
    ⟨unsupported, verdicts⟩ | ⟨side, lacking, verdicts⟩ | ⟨supported, present, check, finds, verdicts⟩
  · simp only [verdicts, Verdict.firstFatal?, List.findSome?_cons, Verdict.fatal?,
      List.findSome?_nil, reduceCtorEq, false_iff]
    rintro ⟨checked, -, ends⟩
    cases ends with
    | @lacks side lacking => cases side <;> simp [Lacks, unsupported] at lacking
    | rule _ _ wrong => simp [RuleFault, unsupported] at wrong
  · simp only [verdicts, Verdict.firstFatal?, List.findSome?_cons, Verdict.fatal?,
      Option.some.injEq]
    constructor
    · rintro rfl
      exact ⟨[], List.nil_prefix, .lacks lacking⟩
    · rintro ⟨checked, -, ends⟩
      cases ends with
      | @lacks other otherLacking =>
        cases side <;> cases other <;> simp_all [Lacks]
      | rule present => exact absurd lacking (present side)
  · rw [verdicts, Verdict.firstFatal?, List.map_map, List.findSome?_map,
      List.findSome?_eq_some_iff]
    simp only [Function.comp_apply, Verdict.fatal?_ofOutcome_eq_some_iff, ← finds,
      ← ruleGoesOn_iff policy (finds _)]
    constructor
    · rintro ⟨before, rule, after, split, ⟨wrong, fatal⟩, earlier⟩
      exact ⟨before ++ [rule], ⟨after, by simp [split]⟩, .rule present earlier wrong fatal⟩
    · rintro ⟨checked, ⟨after, split⟩, ends⟩
      cases ends with
      | lacks lacking => exact absurd lacking (present _)
      | @rule before rule fault _ earlier wrong fatal =>
        exact ⟨before, rule, after, by simp [← split], ⟨wrong, fatal⟩, earlier⟩

end Directive

namespace Engine

theorem firstFatal?_pipelineVerdicts_eq_some_iff {policy : Policy} {request : Request}
    {directives : List Directive} {fault : Fault} :
    Verdict.firstFatal? (pipelineVerdicts policy request directives) = some fault ↔
      ∃ before directive after checked, directives = before ++ directive :: after ∧
        (∀ earlier ∈ before, earlier.GoesOn policy request.source request.target) ∧
        checked <+: directive.rules.rules ∧
        directive.Ends policy request.pipeline before.length request.source request.target checked
          fault := by
  have numbered (start : Nat) :
      Verdict.firstFatal? ((directives.zipIdx start).flatMap fun entry =>
        entry.1.verdicts policy request.pipeline entry.2 request.source request.target) =
          some fault ↔
      ∃ before directive after checked, directives = before ++ directive :: after ∧
        (∀ earlier ∈ before, earlier.GoesOn policy request.source request.target) ∧
        checked <+: directive.rules.rules ∧
        directive.Ends policy request.pipeline (start + before.length) request.source
          request.target checked fault := by
    induction directives generalizing start with
    | nil => simp [Verdict.firstFatal?]
    | cons directive directives ih =>
      simp only [List.zipIdx_cons, List.flatMap_cons]
      rw [Verdict.firstFatal?, List.findSome?_append, Option.or_eq_some_iff]
      constructor
      · rintro (here | ⟨calm, later⟩)
        · obtain ⟨checked, first, ends⟩ := Directive.firstFatal?_verdicts_eq_some_iff.mp here
          exact ⟨[], directive, directives, checked, rfl, by simp, first, ends⟩
        · obtain ⟨before, other, after, checked, rfl, earlier, first, ends⟩ := (ih _).mp later
          refine ⟨directive :: before, other, after, checked, rfl, ?_, first, ?_⟩
          · exact List.forall_mem_cons.mpr
              ⟨Directive.firstFatal?_verdicts_eq_none_iff.mp calm, earlier⟩
          · rwa [List.length_cons, Nat.add_comm before.length, ← Nat.add_assoc]
      · rintro ⟨before, other, after, checked, split, earlier, first, ends⟩
        cases before with
        | nil =>
          cases split
          exact .inl (Directive.firstFatal?_verdicts_eq_some_iff.mpr ⟨checked, first, ends⟩)
        | cons _ before =>
          cases split
          obtain ⟨goesOn, earlier⟩ := List.forall_mem_cons.mp earlier
          refine .inr ⟨Directive.firstFatal?_verdicts_eq_none_iff.mpr goesOn,
            (ih _).mpr ⟨before, other, after, checked, rfl, earlier, first, ?_⟩⟩
          rwa [List.length_cons, Nat.add_comm before.length, ← Nat.add_assoc] at ends
  simpa [pipelineVerdicts] using numbered 0

theorem evaluate_aborted_iff_of_defined {engine : Engine} {files : Files} {request : Request}
    {directives : List Directive} {fault : Fault}
    (defined : engine.mappings.directives files request.pipeline = .ok directives) :
    engine.evaluate files request = .error (.aborted fault) ↔
      ∃ before directive after checked, directives = before ++ directive :: after ∧
        (∀ earlier ∈ before, earlier.GoesOn engine.policy request.source request.target) ∧
        checked <+: directive.rules.rules ∧
        directive.Ends engine.policy request.pipeline before.length request.source request.target
          checked fault := by
  rw [evaluate_eq_aborted_iff, verdicts, defined]
  exact firstFatal?_pipelineVerdicts_eq_some_iff

/-- A fault ends a run if and only if it is why the pipeline has no directives, or that of the
first fatal position, and it would end the run whatever came after that position. -/
theorem evaluate_aborted_iff_first_fatal (engine : Engine) (files : Files) (request : Request)
    (fault : Fault) :
    engine.evaluate files request = .error (.aborted fault) ↔
      (∃ cause, engine.mappings.directives files request.pipeline = .error cause ∧
        fault = .configuration cause) ∨
      ∃ before directive after checked,
        engine.mappings.directives files request.pipeline = .ok (before ++ directive :: after) ∧
        (∀ earlier ∈ before, earlier.GoesOn engine.policy request.source request.target) ∧
        checked <+: directive.rules.rules ∧
        directive.Ends engine.policy request.pipeline before.length request.source request.target
          checked fault ∧
        ∀ (other : MappingSource) (otherFiles : Files) (rules : RuleSet) (later : List Directive),
          checked <+: rules.rules →
          other.directives otherFiles request.pipeline =
            .ok (before ++ { directive with rules } :: later) →
          evaluate { mappings := other, policy := engine.policy } otherFiles request =
            .error (.aborted fault) := by
  constructor
  · intro ended
    cases defined : engine.mappings.directives files request.pipeline with
    | error cause =>
      rw [evaluate_eq_aborted_iff, verdicts, defined] at ended
      cases ended
      exact .inl ⟨cause, rfl, rfl⟩
    | ok directives =>
      obtain ⟨before, directive, after, checked, rfl, earlier, first, ends⟩ :=
        (evaluate_aborted_iff_of_defined defined).mp ended
      refine .inr ⟨before, directive, after, checked, rfl, earlier, first, ends, ?_⟩
      intro other otherFiles rules later kept redefined
      refine (evaluate_aborted_iff_of_defined redefined).mpr ?_
      exact ⟨before, _, later, checked, rfl, earlier, kept, ends.withRules rules⟩
  · rintro (⟨cause, undefined, rfl⟩ | ⟨before, directive, after, checked, defined, earlier, first,
      ends, -⟩)
    · rw [evaluate_eq_aborted_iff, verdicts, undefined]
      rfl
    · exact (evaluate_aborted_iff_of_defined defined).mpr
        ⟨before, directive, after, checked, rfl, earlier, first, ends⟩

end Engine

end Reconcile
