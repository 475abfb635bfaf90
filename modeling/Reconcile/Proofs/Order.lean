import Mathlib.Data.List.Forall2
import Reconcile.Proofs.Channel

namespace Reconcile

structure Directive.SameButOrder (first second : Directive) : Prop where
  method_eq : first.method = second.method
  source_eq : first.source = second.source
  target_eq : first.target = second.target
  transforms_eq : first.transforms = second.transforms
  rules_perm : first.rules.rules.Perm second.rules.rules

/-- Lists of directives that differ in their order and in that of their rules only. -/
def Reordered (first second : List Directive) : Prop :=
  ∃ middle, first.Perm middle ∧ List.Forall₂ Directive.SameButOrder middle second

namespace Verdict

/-- The verdict unless it is fatal. Fatal verdicts name the place of their directive; all others
depend on the rule alone. -/
def mild? : Verdict → Option Verdict
  | fatal _ => none
  | verdict => some verdict

theorem firstFatal?_eq_none_iff_map_mild? (verdicts : List Verdict) :
    firstFatal? verdicts = none ↔ none ∉ verdicts.map mild? := by
  rw [firstFatal?_eq_none_iff, List.mem_map, not_exists]
  refine forall_congr' fun verdict => ?_
  cases verdict <;> simp [fatal?, mild?]

theorem filterMap_mild?_of_calm {verdicts : List Verdict} (calm : firstFatal? verdicts = none) :
    (verdicts.map mild?).filterMap id = verdicts := by
  rw [firstFatal?_eq_none_iff] at calm
  rw [List.filterMap_map]
  have kept : ∀ verdict ∈ verdicts, (id ∘ mild?) verdict = some verdict := by
    intro verdict member
    have here := calm verdict member
    cases verdict with
    | fatal fault => cases here
    | _ => rfl
  rw [List.filterMap_congr kept, List.filterMap_some]

variable {first second : List Verdict}

theorem firstFatal?_eq_none_iff_of_perm (reordered : (first.map mild?).Perm (second.map mild?)) :
    firstFatal? first = none ↔ firstFatal? second = none := by
  rw [firstFatal?_eq_none_iff_map_mild?, firstFatal?_eq_none_iff_map_mild?, reordered.mem_iff]

theorem perm_of_calm (reordered : (first.map mild?).Perm (second.map mild?))
    (calm : firstFatal? first = none) : first.Perm second := by
  have calmSecond := (firstFatal?_eq_none_iff_of_perm reordered).mp calm
  have same := reordered.filterMap id
  rwa [filterMap_mild?_of_calm calm, filterMap_mild?_of_calm calmSecond] at same

end Verdict

theorem Summary.foldl_add_of_perm {first second : List Verdict} (reordered : first.Perm second)
    (summary : Summary) : first.foldl add summary = second.foldl add summary := by
  refine reordered.foldl_eq' (fun verdict _ other _ summary => ?_) summary
  cases verdict <;> cases other <;> simp [add, Nat.add_right_comm]

theorem Summary.conclude_of_perm {faults others : List Fault} (permuted : faults.Perm others)
    (summary : Summary) : summary.conclude faults = summary.conclude others := by
  simp only [conclude, permuted.length_eq, permuted.isEmpty_eq]

namespace Directive

theorem SameButOrder.refl (directive : Directive) : directive.SameButOrder directive :=
  ⟨rfl, rfl, rfl, rfl, .refl _⟩

theorem map_mild?_verdicts (directive : Directive) (policy : Policy) (pipeline : String)
    (index : Nat) (source target : Value) :
    (directive.verdicts policy pipeline index source target).map Verdict.mild? =
      (directive.verdicts policy pipeline 0 source target).map Verdict.mild? := by
  unfold verdicts addresses
  -- The place occurs in the fault of a missing address and nowhere else.
  cases directive.method with
  | unsupported => rfl
  | sameFile => rfl
  | byPath => cases directive.source <;> cases directive.target <;> rfl

theorem SameButOrder.map_mild?_verdicts_perm {first second : Directive}
    (same : first.SameButOrder second) (policy : Policy) (pipeline : String) (index : Nat)
    (source target : Value) :
    ((first.verdicts policy pipeline index source target).map Verdict.mild?).Perm
      ((second.verdicts policy pipeline index source target).map Verdict.mild?) := by
  unfold verdicts addresses
  rw [same.method_eq, same.source_eq, same.target_eq, same.transforms_eq]
  cases second.method with
  | unsupported => rfl
  | sameFile => exact (same.rules_perm.map _).map _
  | byPath =>
    cases second.source with
    | none => rfl
    | some sourceAddress =>
      cases second.target with
      | none => rfl
      | some targetAddress => exact (same.rules_perm.map _).map _

end Directive

namespace Engine

theorem map_mild?_pipelineVerdicts (policy : Policy) (request : Request)
    (directives : List Directive) :
    (pipelineVerdicts policy request directives).map Verdict.mild? =
      directives.flatMap fun directive =>
        (directive.verdicts policy request.pipeline 0 request.source request.target).map
          Verdict.mild? := by
  simp only [pipelineVerdicts, List.map_flatMap, Directive.map_mild?_verdicts]
  conv_rhs => rw [← List.zipIdx_map_fst 0 directives, List.flatMap_map]

theorem map_mild?_perm_of_reordered (policy : Policy) (request : Request)
    {first second : List Directive} (reordered : Reordered first second) :
    ((pipelineVerdicts policy request first).map Verdict.mild?).Perm
      ((pipelineVerdicts policy request second).map Verdict.mild?) := by
  obtain ⟨middle, permuted, same⟩ := reordered
  simp only [map_mild?_pipelineVerdicts]
  refine (permuted.flatMap_right _).trans ?_
  clear permuted
  induction same with
  | nil => rfl
  | cons head _ ih =>
    simp only [List.flatMap_cons]
    exact (head.map_mild?_verdicts_perm policy request.pipeline 0 _ _).append ih

end Engine

theorem Reordered.length_eq {first second : List Directive} (reordered : Reordered first second) :
    first.length = second.length := by
  obtain ⟨middle, permuted, same⟩ := reordered
  exact permuted.length_eq.trans same.length_eq

structure AgreeUpToOrder (first second : Except Failure Summary) : Prop where
  ok_iff : ∀ summary, first = .ok summary ↔ second = .ok summary
  reported : ∀ faults, first = .error (.reported faults) →
    ∃ others, second = .error (.reported others) ∧ faults.Perm others
  reported_back : ∀ others, second = .error (.reported others) →
    ∃ faults, first = .error (.reported faults) ∧ faults.Perm others
  aborted_iff : (∃ fault, first = .error (.aborted fault)) ↔
    ∃ fault, second = .error (.aborted fault)

namespace AgreeUpToOrder

theorem of_aborted (fault other : Fault) :
    AgreeUpToOrder (.error (.aborted fault)) (.error (.aborted other)) := by
  constructor <;> simp

theorem of_calm {faults others : List Fault} (permuted : faults.Perm others) (summary : Summary) :
    AgreeUpToOrder (if faults.isEmpty then .ok summary else .error (.reported faults))
      (if others.isEmpty then .ok summary else .error (.reported others)) := by
  cases faults with
  | nil =>
    cases permuted.nil_eq
    constructor <;> simp
  | cons fault faults =>
    cases others with
    | nil => simp at permuted
    | cons other others =>
      constructor
      · simp
      · rintro _ ⟨⟩
        exact ⟨_, rfl, permuted⟩
      · rintro _ ⟨⟩
        exact ⟨_, rfl, permuted⟩
      · simp

end AgreeUpToOrder

namespace Engine

/-- The order of directives, and of the rules of each, has no influence on a summary, none on which
faults are reported, and none on whether a fault ends the run. -/
theorem evaluate_reordered {policy : Policy} {request : Request}
    {mappings others : MappingSource} {files otherFiles : Files} {first second : List Directive}
    (defined : mappings.directives files request.pipeline = .ok first)
    (redefined : others.directives otherFiles request.pipeline = .ok second)
    (reordered : Reordered first second) :
    AgreeUpToOrder (evaluate { mappings, policy } files request)
      (evaluate { mappings := others, policy } otherFiles request) := by
  have same := map_mild?_perm_of_reordered policy request reordered
  have calm_iff := Verdict.firstFatal?_eq_none_iff_of_perm same
  rw [evaluate_eq, evaluate_eq]
  simp only [summary, verdicts, defined, redefined]
  cases ended : Verdict.firstFatal? (pipelineVerdicts policy request first) with
  | some fault =>
    cases endedToo : Verdict.firstFatal? (pipelineVerdicts policy request second) with
    | none => simp [ended, endedToo] at calm_iff
    | some other => exact .of_aborted fault other
  | none =>
    have permuted := Verdict.perm_of_calm same ended
    have faults : (Verdict.faults (pipelineVerdicts policy request first)).Perm
        (Verdict.faults (pipelineVerdicts policy request second)) := permuted.filterMap _
    rw [calm_iff.mp ended, reordered.length_eq, Summary.foldl_add_of_perm permuted]
    rw [Summary.conclude_of_perm faults]
    exact .of_calm faults _

end Engine

def filesWith (rules : List Rule) : Directive where
  method := .sameFile
  source := none
  target := none
  rules := .sequence rules
  transforms := []

def unknownThenStripped : List Directive :=
  [filesWith [.unrecognized "roughlyEqual", .equal], filesWith [.equalStripped]]

def strippedThenUnknown : List Directive :=
  [filesWith [.equalStripped], filesWith [.equal, .unrecognized "roughlyEqual"]]

theorem unknownThenStripped_reordered : Reordered unknownThenStripped strippedThenUnknown :=
  ⟨[filesWith [.equalStripped], filesWith [.unrecognized "roughlyEqual", .equal]],
    .swap .., .cons (.refl _) (.cons ⟨rfl, rfl, rfl, rfl, .swap ..⟩ .nil)⟩

def onePipeline (directives : List Directive) : MappingSource :=
  .memory { pipelines := [("p", directives)] }

def equalFiles : Request where
  pipeline := "p"
  source := .string "a"
  target := .string "a"

theorem unknownThenStripped_agrees :
    (onePipeline unknownThenStripped).directives noFiles equalFiles.pipeline =
        .ok unknownThenStripped ∧
      (onePipeline strippedThenUnknown).directives noFiles equalFiles.pipeline =
        .ok strippedThenUnknown ∧
      Reordered unknownThenStripped strippedThenUnknown ∧
      AgreeUpToOrder
        (Engine.evaluate ⟨onePipeline unknownThenStripped, .failFast⟩ noFiles equalFiles)
        (Engine.evaluate ⟨onePipeline strippedThenUnknown, .failFast⟩ noFiles equalFiles) :=
  ⟨rfl, rfl, unknownThenStripped_reordered,
    Engine.evaluate_reordered rfl rfl unknownThenStripped_reordered⟩

end Reconcile
