import Reconcile.Proofs.Conclusion

namespace Reconcile

namespace Fault

def isUnknownRule : Fault → Bool
  | unknownRule _ => true
  | _ => false

def isMismatch : Fault → Bool
  | valueMismatch .. => true
  | _ => false

end Fault

theorem Policy.tolerates_failFast (fault : Fault) :
    failFast.tolerates fault = fault.isUnknownRule := by
  cases fault <;> rfl

theorem Policy.tolerates_collectAll (fault : Fault) :
    collectAll.tolerates fault = (fault.isUnknownRule || fault.isMismatch) := by
  cases fault <;> rfl

theorem Policy.not_isMismatch {fault : Fault} (fatal : collectAll.tolerates fault = false) :
    fault.isMismatch = false := by
  rw [tolerates_collectAll, Bool.or_eq_false_iff] at fatal
  exact fatal.2

namespace Verdict

def collected : Verdict → Verdict
  | fatal fault => if fault.isMismatch then reported fault else fatal fault
  | verdict => verdict

theorem ofOutcome_collectAll (outcome : Except Fault Nat) :
    ofOutcome .collectAll outcome = (ofOutcome .failFast outcome).collected := by
  cases outcome with
  | ok pairs => rfl
  | error fault => cases fault <;> rfl

theorem map_collected_of_calm {verdicts : List Verdict} (calm : firstFatal? verdicts = none) :
    verdicts.map collected = verdicts := by
  rw [firstFatal?_eq_none_iff] at calm
  have same : ∀ verdict ∈ verdicts, verdict.collected = id verdict := by
    intro verdict member
    have here := calm verdict member
    cases verdict with
    | fatal fault => cases here
    | _ => rfl
  rw [List.map_congr_left same, List.map_id]

theorem map_collected_of_fatal {verdicts : List Verdict} {fault : Fault}
    (fatal : firstFatal? verdicts = some fault) :
    ∃ after, verdicts.map collected = taken verdicts ++ (Verdict.fatal fault).collected :: after := by
  obtain ⟨after, split⟩ := split_of_firstFatal? fatal
  refine ⟨after.map collected, ?_⟩
  calc verdicts.map collected
      = (taken verdicts ++ .fatal fault :: after).map collected := congrArg _ split
    _ = _ := by
      rw [List.map_append, List.map_cons, map_collected_of_calm (firstFatal?_taken verdicts)]

theorem firstFatal?_map_collected {verdicts : List Verdict} {fault : Fault}
    (fatal : firstFatal? verdicts = some fault) (other : fault.isMismatch = false) :
    firstFatal? (verdicts.map collected) = some fault := by
  obtain ⟨after, split⟩ := map_collected_of_fatal fatal
  rw [split, collected, if_neg (by simp [other])]
  exact firstFatal?_append_fatal (firstFatal?_taken verdicts) fault after

/-- A mismatch that ends a run is reported where mismatches are collected, after all that was
reported before it. -/
theorem faults_map_collected {verdicts : List Verdict} {fault : Fault}
    (fatal : firstFatal? verdicts = some fault) (mismatch : fault.isMismatch = true) :
    ∃ later, faults (verdicts.map collected) = faults (taken verdicts) ++ fault :: later := by
  obtain ⟨after, split⟩ := map_collected_of_fatal fatal
  refine ⟨faults after, ?_⟩
  rw [split, collected, if_pos mismatch]
  simp [faults, reported?]

end Verdict

theorem Directive.verdicts_collectAll (directive : Directive) (pipeline : String) (index : Nat)
    (source target : Value) :
    directive.verdicts .collectAll pipeline index source target =
      (directive.verdicts .failFast pipeline index source target).map Verdict.collected := by
  unfold verdicts
  cases directive.method with
  | unsupported => rfl
  | sameFile => simp [Verdict.ofOutcome_collectAll]
  | byPath =>
    cases found : directive.addresses pipeline index with
    | ok addresses => simp [Verdict.ofOutcome_collectAll]
    | error fault =>
      unfold addresses at found
      split at found <;> cases found <;> rfl

namespace Engine

variable (mappings : MappingSource) (files : Files) (request : Request)

theorem verdicts_collectAll :
    verdicts { mappings, policy := .collectAll } files request =
      (verdicts { mappings, policy := .failFast } files request).map Verdict.collected := by
  unfold verdicts
  cases mappings.directives files request.pipeline with
  | ok directives =>
    simp only [pipelineVerdicts, Directive.verdicts_collectAll, List.map_flatMap]
  | error cause => rfl

variable {mappings files request}

theorem evaluate_collectAll_of_calm
    (calm : Verdict.firstFatal? (verdicts { mappings, policy := .failFast } files request) = none) :
    evaluate { mappings, policy := .collectAll } files request =
      evaluate { mappings, policy := .failFast } files request := by
  have same := verdicts_collectAll mappings files request
  rw [Verdict.map_collected_of_calm calm] at same
  simp only [evaluate_eq, summary, same]

theorem evaluate_collectAll_of_other {fault : Fault}
    (fatal : Verdict.firstFatal? (verdicts { mappings, policy := .failFast } files request) =
      some fault)
    (other : fault.isMismatch = false) :
    evaluate { mappings, policy := .collectAll } files request = .error (.aborted fault) := by
  rw [evaluate_eq_aborted_iff, verdicts_collectAll]
  exact Verdict.firstFatal?_map_collected fatal other

theorem evaluate_collectAll_of_mismatch {fault : Fault}
    (fatal : Verdict.firstFatal? (verdicts { mappings, policy := .failFast } files request) =
      some fault)
    (mismatch : fault.isMismatch = true) :
    (∃ before after, evaluate { mappings, policy := .collectAll } files request =
        .error (.reported (before ++ fault :: after)) ∧
      ∀ earlier ∈ before, earlier.isUnknownRule = true) ∨
    ∃ other, evaluate { mappings, policy := .collectAll } files request =
        .error (.aborted other) ∧ other.isMismatch = false := by
  cases ended : Verdict.firstFatal? (verdicts { mappings, policy := .collectAll } files request) with
  | some other =>
    have aborted := (evaluate_eq_aborted_iff _ _ _ _).mpr ended
    exact .inr ⟨other, aborted, Policy.not_isMismatch (tolerates_of_firstFatal? ended)⟩
  | none =>
    obtain ⟨later, reported⟩ := Verdict.faults_map_collected fatal mismatch
    rw [← verdicts_collectAll] at reported
    refine .inl ⟨_, later, (evaluate_eq_reported_iff _ _ _ _).mpr ⟨ended, ?_, reported⟩, ?_⟩
    · simp
    · intro earlier member
      have tolerable := tolerates_of_mem_faults (Verdict.mem_faults_of_mem_taken member)
      rwa [Policy.tolerates_failFast] at tolerable

structure PoliciesAgree (failFast collectAll : Except Failure Summary) : Prop where
  ok_iff : ∀ summary, failFast = .ok summary ↔ collectAll = .ok summary
  reported : ∀ faults, failFast = .error (.reported faults) →
    collectAll = .error (.reported faults) ∧ ∀ fault ∈ faults, fault.isUnknownRule = true
  reported_of_collectAll : ∀ faults, collectAll = .error (.reported faults) →
    (∀ fault ∈ faults, fault.isMismatch = false) → failFast = .error (.reported faults)
  aborted : ∀ fault, failFast = .error (.aborted fault) → fault.isMismatch = false →
    collectAll = .error (.aborted fault)
  /-- The run that collects goes on after the mismatch that ends the other: it reports it as its
  first mismatch, or it ends at a fault of another kind. -/
  aborted_by_mismatch : ∀ fault, failFast = .error (.aborted fault) → fault.isMismatch = true →
    (∃ before after, collectAll = .error (.reported (before ++ fault :: after)) ∧
      ∀ earlier ∈ before, earlier.isUnknownRule = true) ∨
    ∃ other, collectAll = .error (.aborted other) ∧ other.isMismatch = false
  collectAll_aborted : ∀ fault, collectAll = .error (.aborted fault) → fault.isMismatch = false
  reported_faults : ∀ faults,
    failFast = .error (.reported faults) ∨ collectAll = .error (.reported faults) →
    faults ≠ [] ∧ ∀ fault ∈ faults, fault.isUnknownRule = true ∨ fault.isMismatch = true

variable (mappings files request) in
theorem calm_of_collectAll
    (finished : ∀ fault, evaluate { mappings, policy := .collectAll } files request ≠
      .error (.aborted fault))
    (matching : ∀ faults, evaluate { mappings, policy := .collectAll } files request =
      .error (.reported faults) → ∀ fault ∈ faults, fault.isMismatch = false) :
    Verdict.firstFatal? (verdicts { mappings, policy := .failFast } files request) = none := by
  cases ended : Verdict.firstFatal? (verdicts { mappings, policy := .failFast } files request) with
  | none => rfl
  | some fault =>
    cases kind : fault.isMismatch with
    | false => exact absurd (evaluate_collectAll_of_other ended kind) (finished fault)
    | true =>
      rcases evaluate_collectAll_of_mismatch ended kind with
        ⟨before, after, reported, -⟩ | ⟨other, aborted, -⟩
      · have none := matching _ reported fault (by simp)
        rw [kind] at none
        cases none
      · exact absurd aborted (finished other)

/-- How the two policies are related, for every mapping, pipeline and pair of documents. -/
theorem evaluate_policies_agree (mappings : MappingSource) (files : Files) (request : Request) :
    PoliciesAgree (evaluate { mappings, policy := .failFast } files request)
      (evaluate { mappings, policy := .collectAll } files request) where
  ok_iff summary := by
    constructor
    · intro completed
      rw [evaluate_collectAll_of_calm ((evaluate_eq_ok_iff _ _ _ _).mp completed).1]
      exact completed
    · intro completed
      have calm := calm_of_collectAll mappings files request
        (by simp [completed]) (by simp [completed])
      rwa [evaluate_collectAll_of_calm calm] at completed
  reported faults ended := by
    have calm := ((evaluate_eq_reported_iff _ _ _ _).mp ended).1
    refine ⟨by rwa [evaluate_collectAll_of_calm calm], fun fault member => ?_⟩
    have tolerable := (tolerates_of_reported ended).2 fault member
    rwa [Policy.tolerates_failFast] at tolerable
  reported_of_collectAll faults ended matching := by
    have calm := calm_of_collectAll mappings files request (by simp [ended])
      (by simpa [ended] using matching)
    rwa [evaluate_collectAll_of_calm calm] at ended
  aborted fault ended other :=
    evaluate_collectAll_of_other ((evaluate_eq_aborted_iff _ _ _ _).mp ended) other
  aborted_by_mismatch fault ended mismatch :=
    evaluate_collectAll_of_mismatch ((evaluate_eq_aborted_iff _ _ _ _).mp ended) mismatch
  collectAll_aborted fault ended := Policy.not_isMismatch (tolerates_of_aborted ended)
  reported_faults faults ended := by
    rcases ended with ended | ended
    · obtain ⟨some, tolerable⟩ := tolerates_of_reported ended
      refine ⟨some, fun fault member => .inl ?_⟩
      have here := tolerable fault member
      rwa [Policy.tolerates_failFast] at here
    · obtain ⟨some, tolerable⟩ := tolerates_of_reported ended
      refine ⟨some, fun fault member => ?_⟩
      have here := tolerable fault member
      rwa [Policy.tolerates_collectAll, Bool.or_eq_true] at here

end Engine

end Reconcile
