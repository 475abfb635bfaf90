import Reconcile.Proofs.Agreement

namespace Reconcile

/-- The number of values that two documents share: positions of two arrays, names of two objects. A
document that is no array or object is one value; an array or object shares nothing with a document
of another kind. -/
def Value.sharedCount : Value → Value → Nat
  | .array source, .array target => min source.length target.length
  | .object source, .object target =>
    (source.map (·.1)).countP fun name => name ∈ target.map (·.1)
  | .array _, _ => 0
  | .object _, _ => 0
  | _, _ => 1

namespace Directive

/-- A rule passes for so many pairs of values: in a comparison by path all that the two addresses
find, in a comparison of files all that the two documents share. -/
def Passes (directive : Directive) (rule : Rule) (source target : Value) (pairs : Nat) : Prop :=
  match directive.method with
  | .unsupported => False
  | .sameFile =>
    rule = .equal ∧ source.AgreeInCommon target ∧ source.sharedCount target = pairs
  | .byPath =>
    ∃ sourceAddress targetAddress sourceValues targetValues, ∃ strictness : Strictness,
      directive.source = some sourceAddress ∧ directive.target = some targetAddress ∧
      sourceAddress.extract directive.transforms source = .ok sourceValues ∧
      targetAddress.extract [] target = .ok targetValues ∧
      (rule = .equal ∧ strictness = .trimmed ∨ rule = .equalStripped ∧ strictness = .stripped) ∧
      strictness.AgreeAtAll sourceValues targetValues ∧
      sourceValues.length = pairs ∧ targetValues.length = pairs

/-- What is wrong with a rule of a comparison by path. Each case asks that those above it do not
apply. -/
inductive PathFault (transforms : List Transform) (source target : Address) (rule : Rule)
    (sourceDocument targetDocument : Value) : Fault → Prop
  | sourceExtraction {fault : Fault}
      (failed : source.extract transforms sourceDocument = .error fault) :
      PathFault transforms source target rule sourceDocument targetDocument fault
  | targetExtraction {sourceValues : List Value} {fault : Fault}
      (atSource : source.extract transforms sourceDocument = .ok sourceValues)
      (failed : target.extract [] targetDocument = .error fault) :
      PathFault transforms source target rule sourceDocument targetDocument fault
  | lengths {sourceValues targetValues : List Value}
      (atSource : source.extract transforms sourceDocument = .ok sourceValues)
      (atTarget : target.extract [] targetDocument = .ok targetValues)
      (differ : sourceValues.length ≠ targetValues.length) :
      PathFault transforms source target rule sourceDocument targetDocument
        (.lengthMismatch source sourceValues.length targetValues.length)
  | unknownRule {sourceValues targetValues : List Value} {name : String}
      (atSource : source.extract transforms sourceDocument = .ok sourceValues)
      (atTarget : target.extract [] targetDocument = .ok targetValues)
      (same : sourceValues.length = targetValues.length)
      (unknown : rule = .unrecognized name) :
      PathFault transforms source target rule sourceDocument targetDocument (.unknownRule name)
  | comparison {sourceValues targetValues : List Value} {strictness : Strictness} {fault : Fault}
      (atSource : source.extract transforms sourceDocument = .ok sourceValues)
      (atTarget : target.extract [] targetDocument = .ok targetValues)
      (same : sourceValues.length = targetValues.length)
      (known : rule.strictness? = some strictness)
      (failed : compareItems strictness sourceValues targetValues = .error fault) :
      PathFault transforms source target rule sourceDocument targetDocument fault

inductive FilesFault (rule : Rule) (source target : Value) : Fault → Prop
  | unknownRule (unknown : rule ≠ .equal) : FilesFault rule source target (.unknownRule rule.name)
  | comparison {fault : Fault} (known : rule = .equal)
      (failed : compareDocuments .stripped source target = .error fault) :
      FilesFault rule source target fault

/-- What is wrong with a rule of a directive that lacks no address. -/
def RuleFault (directive : Directive) (rule : Rule) (source target : Value) (fault : Fault) :
    Prop :=
  match directive.method with
  | .unsupported => False
  | .sameFile => FilesFault rule source target fault
  | .byPath =>
    ∃ sourceAddress targetAddress,
      directive.source = some sourceAddress ∧ directive.target = some targetAddress ∧
      PathFault directive.transforms sourceAddress targetAddress rule source target fault

/-- What a rule finds: the pairs for which it passes, or its fault. -/
def Finds (directive : Directive) (rule : Rule) (source target : Value) :
    Except Fault Nat → Prop
  | .ok pairs => directive.Passes rule source target pairs
  | .error fault => directive.RuleFault rule source target fault

/-- Which address a comparison by path lacks; if it lacks both, the source counts. -/
def Lacks (directive : Directive) : Side → Prop
  | .source => directive.method = .byPath ∧ directive.source = none
  | .target =>
    directive.method = .byPath ∧ directive.source.isSome ∧ directive.target = none

theorem checkByPath_eq_error_iff (transforms : List Transform) (source target : Address)
    (rule : Rule) (sourceDocument targetDocument : Value) (fault : Fault) :
    checkByPath transforms source target rule sourceDocument targetDocument = .error fault ↔
      PathFault transforms source target rule sourceDocument targetDocument fault := by
  constructor
  · intro failed
    unfold checkByPath at failed
    cases atSource : source.extract transforms sourceDocument with
    | error cause =>
      simp only [atSource, Fallible.error_bind, Except.error.injEq] at failed
      exact failed ▸ .sourceExtraction atSource
    | ok sourceValues =>
      cases atTarget : target.extract [] targetDocument with
      | error cause =>
        simp only [atSource, atTarget, Fallible.ok_bind, Fallible.error_bind,
          Except.error.injEq] at failed
        exact failed ▸ .targetExtraction atSource atTarget
      | ok targetValues =>
        simp only [atSource, atTarget, Fallible.ok_bind] at failed
        split at failed
        · rename_i differ
          cases failed
          exact .lengths atSource atTarget differ
        · rename_i same
          rw [not_not] at same
          cases rule with
          | unrecognized name =>
            cases failed
            exact .unknownRule atSource atTarget same rfl
          | equal => exact .comparison atSource atTarget same rfl failed
          | equalStripped => exact .comparison atSource atTarget same rfl failed
  · intro wrong
    cases wrong with
    | sourceExtraction failed => simp [checkByPath, failed]
    | targetExtraction atSource failed =>
      simp [checkByPath, atSource, failed]
    | lengths atSource atTarget differ =>
      simp [checkByPath, atSource, atTarget, differ]
    | unknownRule atSource atTarget same unknown =>
      simp [checkByPath, atSource, atTarget, same, unknown, Rule.strictness?, Rule.name]
    | comparison atSource atTarget same known failed =>
      simp [checkByPath, atSource, atTarget, same, known, failed]

theorem checkFiles_eq_error_iff (rule : Rule) (source target : Value) (fault : Fault) :
    checkFiles rule source target = .error fault ↔ FilesFault rule source target fault := by
  constructor
  · intro failed
    cases rule with
    | equal => exact .comparison rfl failed
    | equalStripped =>
      cases failed
      exact .unknownRule (by simp)
    | unrecognized name =>
      cases failed
      exact .unknownRule (by simp)
  · intro wrong
    cases wrong with
    | unknownRule unknown => cases rule <;> simp_all [checkFiles]
    | comparison known failed => simpa [known, checkFiles] using failed

end Directive

namespace Pair

theorem length_ofMembers (source target : List (String × Value)) :
    (ofMembers source target).length =
      (source.map (·.1)).countP fun name => name ∈ target.map (·.1) := by
  rw [ofMembers, List.length_filterMap_eq_countP, List.countP_map]
  refine List.countP_congr fun member _ => ?_
  simp [List.lookup_isSome_iff]

theorem length_ofDocuments (source target : Value) :
    (ofDocuments source target).length = source.sharedCount target := by
  cases source <;> cases target <;>
    simp [ofDocuments, Value.sharedCount, ofItems, length_ofMembers]

end Pair

namespace Directive

theorem checkFiles_eq_ok_iff (rule : Rule) (source target : Value) (pairs : Nat) :
    checkFiles rule source target = .ok pairs ↔
      rule = .equal ∧ source.AgreeInCommon target ∧ source.sharedCount target = pairs := by
  cases rule <;>
    simp [checkFiles, compareDocuments, Pair.compare_eq_ok_iff, Pair.forall_mem_ofDocuments_iff,
      Pair.length_ofDocuments]

theorem finds_iff_checkFiles {directive : Directive} (sameFile : directive.method = .sameFile)
    (rule : Rule) (source target : Value) (outcome : Except Fault Nat) :
    directive.Finds rule source target outcome ↔ checkFiles rule source target = outcome := by
  cases outcome with
  | ok pairs => simp only [Finds, Passes, sameFile, checkFiles_eq_ok_iff]
  | error fault => simp only [Finds, RuleFault, sameFile, checkFiles_eq_error_iff]

theorem finds_iff_checkByPath {directive : Directive} {sourceAddress targetAddress : Address}
    (byPath : directive.method = .byPath) (atSource : directive.source = some sourceAddress)
    (atTarget : directive.target = some targetAddress)
    (rule : Rule) (source target : Value) (outcome : Except Fault Nat) :
    directive.Finds rule source target outcome ↔
      checkByPath directive.transforms sourceAddress targetAddress rule source target =
        outcome := by
  cases outcome with
  | ok pairs =>
    simp only [Finds, Passes, byPath, atSource, atTarget, checkByPath_eq_ok_iff,
      Rule.strictness?_eq_some_iff]
    simp
  | error fault => simp [Finds, RuleFault, byPath, atSource, atTarget, checkByPath_eq_error_iff]

theorem verdicts_cases (directive : Directive) (policy : Policy) (pipeline : String)
    (index : Nat) (source target : Value) :
    (directive.method = .unsupported ∧
      directive.verdicts policy pipeline index source target = [.skipped]) ∨
    (∃ side, directive.Lacks side ∧
      directive.verdicts policy pipeline index source target =
        [.fatal (.configuration (.missingAddress pipeline index side))]) ∨
    (directive.method ≠ .unsupported ∧ (∀ side, ¬ directive.Lacks side) ∧
      ∃ check : Rule → Except Fault Nat,
        (∀ rule outcome, directive.Finds rule source target outcome ↔ check rule = outcome) ∧
        directive.verdicts policy pipeline index source target =
          (directive.rules.rules.map check).map (Verdict.ofOutcome policy)) := by
  have noneLacking (present : directive.method = .byPath →
      directive.source.isSome ∧ directive.target.isSome) (side : Side) :
      ¬ directive.Lacks side := by
    cases side <;> simp only [Lacks] <;> intro lacks <;> simp_all
  cases method : directive.method with
  | unsupported => exact .inl ⟨rfl, by simp [verdicts, method]⟩
  | sameFile =>
    refine .inr (.inr ⟨by simp, noneLacking (by simp [method]), _,
      fun rule => finds_iff_checkFiles method rule source target, ?_⟩)
    simp [verdicts, method]
  | byPath =>
    cases atSource : directive.source with
    | none =>
      exact .inr (.inl ⟨.source, ⟨method, atSource⟩, by simp [verdicts, method, addresses, atSource]⟩)
    | some sourceAddress =>
      cases atTarget : directive.target with
      | none =>
        exact .inr (.inl ⟨.target, ⟨method, by simp [atSource], atTarget⟩,
          by simp [verdicts, method, addresses, atSource, atTarget]⟩)
      | some targetAddress =>
        refine .inr (.inr ⟨by simp, noneLacking (by simp [atSource, atTarget]), _,
          fun rule => finds_iff_checkByPath method atSource atTarget rule source target, ?_⟩)
        simp [verdicts, method, addresses, atSource, atTarget]

end Directive

end Reconcile
