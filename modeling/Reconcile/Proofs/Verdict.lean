import Mathlib.Data.List.Forall2
import Mathlib.Data.List.TakeWhile
import Reconcile.Engine.Run

namespace Reconcile

inductive Verdict
  | skipped
  | passed (pairs : Nat)
  | reported (fault : Fault)
  | fatal (fault : Fault)

namespace Verdict

def ofOutcome (policy : Policy) : Except Fault Nat → Verdict
  | .ok pairs => .passed pairs
  | .error fault => if policy.tolerates fault then .reported fault else .fatal fault

def fatal? : Verdict → Option Fault
  | fatal fault => some fault
  | _ => none

def reported? : Verdict → Option Fault
  | reported fault => some fault
  | _ => none

def firstFatal? (verdicts : List Verdict) : Option Fault := verdicts.findSome? fatal?

/-- The verdicts that a run takes in before a fault ends it. -/
def taken (verdicts : List Verdict) : List Verdict := verdicts.takeWhile (·.fatal?.isNone)

def faults (verdicts : List Verdict) : List Fault := verdicts.filterMap reported?

@[simp] theorem faults_nil : faults [] = [] := rfl

theorem firstFatal?_eq_none_iff (verdicts : List Verdict) :
    firstFatal? verdicts = none ↔ ∀ verdict ∈ verdicts, verdict.fatal? = none := by
  simp [firstFatal?]

theorem faults_eq_nil_iff (verdicts : List Verdict) :
    faults verdicts = [] ↔ ∀ verdict ∈ verdicts, verdict.reported? = none := by
  simp [faults]

theorem mem_faults_iff (verdicts : List Verdict) (fault : Fault) :
    fault ∈ faults verdicts ↔ .reported fault ∈ verdicts := by
  simp only [faults, List.mem_filterMap]
  constructor
  · rintro ⟨verdict, member, found⟩
    cases verdict <;> cases found
    exact member
  · intro member
    exact ⟨_, member, rfl⟩

/-- Whether a policy lets a run go on, or end, as the verdict says. -/
def Fits (policy : Policy) : Verdict → Prop
  | reported fault => policy.tolerates fault = true
  | fatal fault => policy.tolerates fault = false
  | _ => True

theorem fits_ofOutcome (policy : Policy) (outcome : Except Fault Nat) :
    (ofOutcome policy outcome).Fits policy := by
  cases outcome with
  | ok pairs => exact True.intro
  | error fault => cases tolerated : policy.tolerates fault <;> simp [ofOutcome, Fits, tolerated]

theorem firstFatal?_taken (verdicts : List Verdict) : firstFatal? (taken verdicts) = none := by
  rw [firstFatal?_eq_none_iff]
  intro verdict member
  simpa using List.mem_takeWhile_imp member

theorem mem_faults_of_mem_taken {verdicts : List Verdict} {fault : Fault}
    (member : fault ∈ faults (taken verdicts)) : fault ∈ faults verdicts := by
  rw [mem_faults_iff] at member ⊢
  exact (List.takeWhile_prefix _).subset member

theorem split_of_firstFatal? {verdicts : List Verdict} {fault : Fault}
    (found : firstFatal? verdicts = some fault) :
    ∃ after, verdicts = taken verdicts ++ .fatal fault :: after := by
  induction verdicts with
  | nil => cases found
  | cons verdict verdicts ih =>
    cases verdict with
    | fatal first =>
      cases found
      exact ⟨verdicts, rfl⟩
    | _ =>
      obtain ⟨after, split⟩ := ih found
      exact ⟨after, congrArg (List.cons _) split⟩

theorem taken_of_calm {verdicts : List Verdict} (calm : firstFatal? verdicts = none) :
    taken verdicts = verdicts := by
  rw [firstFatal?_eq_none_iff] at calm
  rw [taken, List.takeWhile_eq_self_iff]
  intro verdict member
  simp [calm verdict member]

theorem firstFatal?_append_fatal {before : List Verdict} (calm : firstFatal? before = none)
    (fault : Fault) (after : List Verdict) :
    firstFatal? (before ++ .fatal fault :: after) = some fault := by
  rw [firstFatal?] at calm ⊢
  simp [List.findSome?_append, calm, List.findSome?_cons, fatal?]

end Verdict

namespace Directive

/-- The verdicts on the rules of a directive, which is number `index` of its pipeline. -/
def verdicts (directive : Directive) (policy : Policy) (pipeline : String) (index : Nat)
    (source target : Value) : List Verdict :=
  match directive.method with
  | .unsupported => [.skipped]
  | .sameFile =>
    directive.rules.rules.map fun rule => .ofOutcome policy (checkFiles rule source target)
  | .byPath =>
    match directive.addresses pipeline index with
    | .error fault => [.fatal fault]
    | .ok (sourceAddress, targetAddress) =>
      directive.rules.rules.map fun rule => .ofOutcome policy
        (checkByPath directive.transforms sourceAddress targetAddress rule source target)

theorem verdicts_fit (directive : Directive) (policy : Policy) (pipeline : String) (index : Nat)
    (source target : Value) :
    ∀ verdict ∈ directive.verdicts policy pipeline index source target, verdict.Fits policy := by
  unfold verdicts
  cases directive.method with
  | unsupported => simp [Verdict.Fits]
  | sameFile => simp [Verdict.fits_ofOutcome]
  | byPath =>
    cases found : directive.addresses pipeline index with
    | ok addresses => simp [Verdict.fits_ofOutcome]
    | error fault =>
      unfold addresses at found
      split at found <;> cases found <;> cases policy <;>
        simp [Verdict.Fits, Policy.tolerates]

end Directive

namespace Engine

def pipelineVerdicts (policy : Policy) (request : Request) (directives : List Directive) :
    List Verdict :=
  directives.zipIdx.flatMap fun (directive, index) =>
    directive.verdicts policy request.pipeline index request.source request.target

theorem pipelineVerdicts_congr {policy : Policy} {request : Request}
    {directives others : List Directive}
    (same : List.Forall₂ (fun one other => ∀ index,
      one.verdicts policy request.pipeline index request.source request.target =
        other.verdicts policy request.pipeline index request.source request.target)
      directives others) :
    pipelineVerdicts policy request directives = pipelineVerdicts policy request others := by
  unfold pipelineVerdicts
  -- The number of the first directive is free: those after it count on.
  generalize 0 = start
  induction same generalizing start with
  | nil => rfl
  | cons head _ ih => simp only [List.zipIdx_cons, List.flatMap_cons, ih (start + 1), head start]

/-- The verdicts on all that a request asks for; a pipeline without directives to run is at fault
as a whole. -/
def verdicts (engine : Engine) (files : Files) (request : Request) : List Verdict :=
  match engine.mappings.directives files request.pipeline with
  | .ok directives => pipelineVerdicts engine.policy request directives
  | .error cause => [.fatal (.configuration cause)]

theorem verdicts_fit (engine : Engine) (files : Files) (request : Request) :
    ∀ verdict ∈ engine.verdicts files request, verdict.Fits engine.policy := by
  unfold verdicts
  split
  · intro verdict member
    obtain ⟨_, -, here⟩ := List.mem_flatMap.mp member
    exact Directive.verdicts_fit _ _ _ _ _ _ verdict here
  · cases engine.policy <;> simp [Verdict.Fits, Policy.tolerates]

theorem tolerates_of_mem_faults {engine : Engine} {files : Files} {request : Request}
    {fault : Fault} (member : fault ∈ Verdict.faults (engine.verdicts files request)) :
    engine.policy.tolerates fault = true :=
  engine.verdicts_fit files request _ ((Verdict.mem_faults_iff _ fault).mp member)

theorem tolerates_of_firstFatal? {engine : Engine} {files : Files} {request : Request}
    {fault : Fault} (fatal : Verdict.firstFatal? (engine.verdicts files request) = some fault) :
    engine.policy.tolerates fault = false := by
  obtain ⟨after, split⟩ := Verdict.split_of_firstFatal? fatal
  exact engine.verdicts_fit files request (.fatal fault) (by rw [split]; simp)

end Engine

namespace Progress

def take (progress : Progress) : Verdict → Except Halt Progress
  | .skipped => .ok progress.skip
  | .passed pairs => .ok (progress.beginRule.count pairs)
  | .reported fault => .ok (progress.beginRule.report fault)
  | .fatal fault => .error (progress.halt fault)

theorem settle_beginRule (progress : Progress) (policy : Policy) (outcome : Except Fault Nat) :
    progress.beginRule.settle policy outcome = progress.take (.ofOutcome policy outcome) := by
  cases outcome with
  | ok pairs => rfl
  | error fault =>
    simp only [settle, Verdict.ofOutcome]
    split <;> rfl

theorem checkRules_eq (progress : Progress) (policy : Policy) (check : Rule → Except Fault Nat)
    (rules : List Rule) :
    progress.checkRules policy check rules =
      (rules.map fun rule => Verdict.ofOutcome policy (check rule)).foldlM take progress := by
  rw [List.foldlM_map]
  simp only [checkRules, settle_beginRule]

end Progress

theorem Directive.run_eq (directive : Directive) (policy : Policy) (pipeline : String)
    (index : Nat) (source target : Value) (progress : Progress) :
    directive.run policy pipeline index source target progress =
      (directive.verdicts policy pipeline index source target).foldlM Progress.take progress := by
  unfold Directive.run Directive.verdicts
  cases directive.method with
  | unsupported => rfl
  | sameFile => exact progress.checkRules_eq policy _ _
  | byPath =>
    cases directive.addresses pipeline index with
    | error fault => rfl
    | ok addresses => exact progress.checkRules_eq policy _ _

theorem Engine.runDirectives_eq (policy : Policy) (request : Request)
    (directives : List Directive) (progress : Progress) :
    runDirectives policy request directives progress =
      (pipelineVerdicts policy request directives).foldlM Progress.take progress := by
  simp only [runDirectives, pipelineVerdicts, Directive.run_eq]
  generalize directives.zipIdx = numbered
  induction numbered generalizing progress with
  | nil => rfl
  | cons first rest ih => simp only [List.foldlM_cons, List.flatMap_cons, List.foldlM_append, ih]

end Reconcile
