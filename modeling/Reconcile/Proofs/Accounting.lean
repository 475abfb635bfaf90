import Mathlib.Algebra.Ring.Nat
import Mathlib.Data.List.Forall2
import Reconcile.Proofs.Channel
import Reconcile.Proofs.Outcome

namespace Reconcile

namespace Outcome

def passes (outcomes : List (Except Fault Nat)) : List Nat :=
  outcomes.filterMap fun
    | .ok pairs => some pairs
    | .error _ => none

def faults (outcomes : List (Except Fault Nat)) : List Fault :=
  outcomes.filterMap fun
    | .ok _ => none
    | .error fault => some fault

theorem length_passes_add_length_faults (outcomes : List (Except Fault Nat)) :
    (passes outcomes).length + (faults outcomes).length = outcomes.length := by
  induction outcomes with
  | nil => rfl
  | cons outcome outcomes ih =>
    cases outcome <;> simp only [passes, faults, List.filterMap_cons, List.length_cons] at ih ⊢ <;>
      omega

theorem passes_append (before after : List (Except Fault Nat)) :
    passes (before ++ after) = passes before ++ passes after :=
  List.filterMap_append

theorem faults_append (before after : List (Except Fault Nat)) :
    faults (before ++ after) = faults before ++ faults after :=
  List.filterMap_append

end Outcome

namespace Directive

def checkedRules (directive : Directive) : List Rule :=
  if directive.method = .unsupported then [] else directive.rules.rules

end Directive

/-- The rules that a run checks, each with its directive, in their order. -/
def checkedRules (directives : List Directive) : List (Directive × Rule) :=
  directives.flatMap fun directive => directive.checkedRules.map (directive, ·)

theorem length_checkedRules (directives : List Directive) :
    (checkedRules directives).length =
      ((directives.filter (·.method ≠ .unsupported)).map (·.rules.rules.length)).sum := by
  induction directives with
  | nil => rfl
  | cons directive directives ih =>
    have first : checkedRules (directive :: directives) =
        directive.checkedRules.map (directive, ·) ++ checkedRules directives := rfl
    rw [first, List.length_append, List.length_map, ih]
    by_cases unsupported : directive.method = .unsupported <;>
      simp [Directive.checkedRules, unsupported]

def Summary.addOutcomes (summary : Summary) (skipped : Nat) (outcomes : List (Except Fault Nat)) :
    Summary :=
  { summary with
    skipped := summary.skipped + skipped
    rules := summary.rules + outcomes.length
    compared := summary.compared + (Outcome.passes outcomes).sum }

/-- Verdicts that count as so many skipped directives and these outcomes of rules. -/
structure Verdict.Account (verdicts : List Verdict) (skipped : Nat)
    (outcomes : List (Except Fault Nat)) : Prop where
  add : ∀ summary, verdicts.foldl Summary.add summary = summary.addOutcomes skipped outcomes
  faults : Verdict.faults verdicts = Outcome.faults outcomes

namespace Verdict.Account

theorem nil : Account [] 0 [] where
  add _ := rfl
  faults := rfl

theorem skip : Account [.skipped] 1 [] where
  add _ := rfl
  faults := rfl

theorem append {before after : List Verdict} {skipped later : Nat}
    {outcomes others : List (Except Fault Nat)} (first : Account before skipped outcomes)
    (second : Account after later others) :
    Account (before ++ after) (skipped + later) (outcomes ++ others) where
  add summary := by
    rw [List.foldl_append, first.add, second.add]
    simp [Summary.addOutcomes, Outcome.passes_append, Nat.add_assoc]
  faults := by
    have split : Verdict.faults (before ++ after) =
        Verdict.faults before ++ Verdict.faults after := List.filterMap_append
    rw [split, first.faults, second.faults, Outcome.faults_append]

theorem ofOutcome {policy : Policy} {outcome : Except Fault Nat}
    (calm : (Verdict.ofOutcome policy outcome).fatal? = none) :
    Account [Verdict.ofOutcome policy outcome] 0 [outcome] := by
  cases outcome with
  | ok pairs =>
    constructor
    · intro summary
      simp [Verdict.ofOutcome, Summary.add, Summary.addOutcomes, Outcome.passes]
    · rfl
  | error fault =>
    have tolerated : policy.tolerates fault = true := by
      by_contra intolerable
      simp [Verdict.ofOutcome, intolerable, fatal?] at calm
    constructor
    · intro summary
      simp [Verdict.ofOutcome, tolerated, Summary.add, Summary.addOutcomes, Outcome.passes]
    · simp [Verdict.ofOutcome, tolerated, Verdict.faults, reported?, Outcome.faults]

theorem map_ofOutcome {policy : Policy} {outcomes : List (Except Fault Nat)}
    (calm : ∀ outcome ∈ outcomes, (Verdict.ofOutcome policy outcome).fatal? = none) :
    Account (outcomes.map (Verdict.ofOutcome policy)) 0 outcomes := by
  induction outcomes with
  | nil => exact nil
  | cons outcome outcomes ih =>
    have first := ofOutcome (calm outcome (by simp))
    exact first.append (ih fun later member => calm later (by simp [member]))

end Verdict.Account

/-- Outcomes that rules with their directives can have. -/
def AllFind (request : Request) (checked : List (Directive × Rule))
    (outcomes : List (Except Fault Nat)) : Prop :=
  List.Forall₂ (fun (entry : Directive × Rule) outcome =>
    entry.1.Finds entry.2 request.source request.target outcome) checked outcomes

theorem Directive.account_verdicts {directive : Directive} {policy : Policy} {request : Request}
    {index : Nat}
    (calm : Verdict.firstFatal? (directive.verdicts policy request.pipeline index request.source
      request.target) = none) :
    ∃ outcomes, AllFind request (directive.checkedRules.map (directive, ·)) outcomes ∧
      Verdict.Account
        (directive.verdicts policy request.pipeline index request.source request.target)
        (if directive.method = .unsupported then 1 else 0) outcomes := by
  rw [Verdict.firstFatal?_eq_none_iff] at calm
  rcases directive.verdicts_cases policy request.pipeline index request.source request.target with
    ⟨unsupported, verdicts⟩ | ⟨side, -, verdicts⟩ | ⟨supported, -, check, finds, verdicts⟩
  · refine ⟨[], ?_, ?_⟩
    · simp [AllFind, checkedRules, unsupported]
    · simpa [unsupported, verdicts] using Verdict.Account.skip
  · simp [verdicts, Verdict.fatal?] at calm
  · refine ⟨directive.rules.rules.map check, ?_, ?_⟩
    · rw [checkedRules, if_neg supported, AllFind, List.forall₂_map_left_iff,
        List.forall₂_map_right_iff, List.forall₂_same]
      intro rule _
      exact (finds rule _).mpr rfl
    · rw [if_neg supported, verdicts]
      refine Verdict.Account.map_ofOutcome fun outcome member => calm _ ?_
      rw [verdicts]
      exact List.mem_map_of_mem member

theorem Engine.account_pipelineVerdicts {policy : Policy} {request : Request}
    {directives : List Directive}
    (calm : Verdict.firstFatal? (pipelineVerdicts policy request directives) = none) :
    ∃ outcomes, AllFind request (checkedRules directives) outcomes ∧
      Verdict.Account (pipelineVerdicts policy request directives)
        (directives.countP (·.method = .unsupported)) outcomes := by
  unfold pipelineVerdicts at calm ⊢
  -- The directives that are left are numbered from any place on.
  generalize 0 = start at calm ⊢
  induction directives generalizing start with
  | nil => exact ⟨[], .nil, .nil⟩
  | cons directive directives ih =>
    simp only [List.zipIdx_cons, List.flatMap_cons] at calm ⊢
    rw [Verdict.firstFatal?, List.findSome?_append, Option.or_eq_none_iff] at calm
    obtain ⟨outcomes, found, account⟩ := directive.account_verdicts calm.1
    obtain ⟨others, laterFound, later⟩ := ih _ calm.2
    refine ⟨outcomes ++ others, List.rel_append found laterFound, ?_⟩
    have total : (directive :: directives).countP (·.method = .unsupported) =
        (if directive.method = .unsupported then 1 else 0) +
          directives.countP (·.method = .unsupported) := by
      simp [List.countP_cons, Nat.add_comm]
    rw [total]
    exact account.append later

/-- What the summary of a run on these directives says, and what its evaluation reports. -/
structure Accounts (directives : List Directive) (request : Request) (summary : Summary)
    (evaluation : Except Failure Summary) : Prop where
  directives_eq : summary.directives = directives.length
  skipped_eq : summary.skipped = directives.countP (·.method = .unsupported)
  rules_eq : summary.rules =
    ((directives.filter (·.method ≠ .unsupported)).map (·.rules.rules.length)).sum
  outcomes : ∃ outcomes, AllFind request (checkedRules directives) outcomes ∧
    summary.rules = (Outcome.passes outcomes).length + summary.reported ∧
    summary.compared = (Outcome.passes outcomes).sum ∧
    summary.reported = (Outcome.faults outcomes).length ∧
    evaluation =
      if Outcome.faults outcomes = [] then .ok summary
      else .error (.reported (Outcome.faults outcomes))

namespace Engine

/-- A run that no fault ends accounts for every directive and every rule of its pipeline. -/
theorem execute_accounts {engine : Engine} {files : Files} {request : Request}
    {channel : List Message} {summary : Summary}
    (ended : (engine.execute files request channel).1 = .ok summary) :
    ∃ directives, engine.mappings.directives files request.pipeline = .ok directives ∧
      Accounts directives request summary (engine.evaluate files request) := by
  obtain ⟨calm, rfl⟩ := (execute_result_eq_ok_iff _ _ _ _ _).mp ended
  cases defined : engine.mappings.directives files request.pipeline with
  | error cause => simp [verdicts, defined, Verdict.firstFatal?, Verdict.fatal?] at calm
  | ok directives =>
    have verdicts : engine.verdicts files request =
        pipelineVerdicts engine.policy request directives := by simp [verdicts, defined]
    obtain ⟨outcomes, found, account⟩ := account_pipelineVerdicts (verdicts ▸ calm)
    have counted : engine.summary files request =
        (Summary.addOutcomes { pipeline := request.pipeline, directives := directives.length }
          (directives.countP (·.method = .unsupported)) outcomes).conclude
            (Outcome.faults outcomes) := by
      simp only [Engine.summary, defined, verdicts, account.add, account.faults]
    have checked := found.length_eq
    have conserved := Outcome.length_passes_add_length_faults outcomes
    refine ⟨directives, rfl, ?_⟩
    constructor
    · simp [counted, Summary.conclude, Summary.addOutcomes]
    · simp [counted, Summary.conclude, Summary.addOutcomes]
    · rw [← length_checkedRules, checked, counted]
      simp [Summary.conclude, Summary.addOutcomes]
    · refine ⟨outcomes, found, ?_, ?_, ?_, ?_⟩
      · simp [counted, Summary.conclude, Summary.addOutcomes, conserved]
      · simp [counted, Summary.conclude, Summary.addOutcomes]
      · simp [counted, Summary.conclude]
      · rw [evaluate_eq, calm, verdicts, account.faults]
        cases Outcome.faults outcomes <;> rfl

end Engine

def threeDirectives : Mapping where
  pipelines := [("p", [
    { method := .sameFile
      source := none
      target := none
      rules := .sequence [.unrecognized "roughlyEqual", .equal]
      transforms := [] },
    { method := .unsupported
      source := none
      target := none
      rules := .single .equal
      transforms := [] },
    { method := .byPath
      source := some ⟨"$[*]", .query⟩
      target := some ⟨"$[:2]", .query⟩
      rules := .single .equal
      transforms := [] }])]

def growing : Request where
  pipeline := "p"
  source := .array [.string "a", .string "b"]
  target := .array [.string "a ", .string "b", .string "c"]

def threeDirectivesEngine : Engine := { mappings := .memory threeDirectives, policy := .failFast }

def growingSummary : Summary where
  pipeline := "p"
  status := .failed
  directives := 3
  skipped := 1
  rules := 3
  compared := 4
  reported := 1

theorem threeDirectives_accounts :
    (threeDirectivesEngine.execute noFiles growing []).1 = .ok growingSummary ∧
      ∃ directives,
        threeDirectivesEngine.mappings.directives noFiles growing.pipeline = .ok directives ∧
        Accounts directives growing growingSummary
          (threeDirectivesEngine.evaluate noFiles growing) := by
  have ended : (threeDirectivesEngine.execute noFiles growing []).1 = .ok growingSummary := rfl
  exact ⟨ended, Engine.execute_accounts ended⟩

end Reconcile
