import Mathlib.Tactic.MkIffOfInductiveProp
import Reconcile.Mapping.Decode
import Reconcile.Proofs.Document.Members
import Reconcile.Proofs.Fallible

namespace Reconcile.Mapping

open Fallible

def sequence? : Value → Option (List Rule)
  | .array items => items.mapM rule?
  | _ => none

theorem sequence?_eq_some_iff (value : Value) (rules : List Rule) :
    sequence? value = some rules ↔
      ∃ items, value = .array items ∧ List.Forall₂ (rule? · = some ·) items rules := by
  cases value <;> simp [sequence?, mapM_eq_some_iff]

theorem decodeRules_eq_ok_iff (value : Value) (rules : RuleSet) :
    decodeRules value = .ok rules ↔
      (∃ list, sequence? value = some list ∧ rules = .sequence list) ∨
        sequence? value = none ∧ ∃ rule, rule? value = some rule ∧ rules = .single rule := by
  have whole : decodeRules value =
      (((sequence? value).map .sequence).or ((rule? value).map .single)).elim
        (.error .noRuleSet) .ok := by
    cases value <;> simp only [decodeRules, sequence?] <;> split <;> simp [*]
  rw [whole]
  cases sequence? value with
  | some list => simp [eq_comm]
  | none => cases rule? value <;> simp [eq_comm]

theorem decodeTransforms_object_iff (members : List (String × Value))
    (transforms : List Transform) :
    decodeTransforms (.object members) = .ok transforms ↔
      List.Forall₂ (fun member transform => decodeTransform member.1 member.2 = .ok transform)
        members transforms :=
  mapM_eq_ok_iff _ _ _

/-- A part is read from its member, or stays as it is. -/
def Decodes {α : Type} (decode : Decode α) (found : Option Value) (before after : α) : Prop :=
  match found with
  | some value => decode value = .ok after
  | none => before = after

section

variable {α : Type} (decode : Decode α)

@[simp] theorem decodes_some (value : Value) (before after : α) :
    Decodes decode (some value) before after ↔ decode value = .ok after := Iff.rfl

@[simp] theorem decodes_none (before after : α) :
    Decodes decode none before after ↔ before = after := Iff.rfl

theorem decodes_cons {name : String} {value : Value} {members : List (String × Value)}
    (absent : members.lookup name = none) (part : String) (before after : α) :
    Decodes decode (((name, value) :: members).lookup part) before after ↔
      ∃ next, Decodes decode ([(name, value)].lookup part) before next ∧
        Decodes decode (members.lookup part) next after := by
  by_cases same : part = name
  · subst same
    simp [absent]
  · simp [List.lookup_cons, beq_false_of_ne same]

end

def decodeSomeMethod : Decode (Option Method) := fun value => (decodeMethod value).map some

@[mk_iff]
structure Draft.Reads (members : List (String × Value)) (before after : Draft) : Prop where
  method : Decodes decodeSomeMethod (members.lookup "method") before.method after.method
  source : Decodes decodeAddress (members.lookup "source_path") before.source after.source
  target : Decodes decodeAddress (members.lookup "target_path") before.target after.target
  rules : Decodes decodeRules (members.lookup "rules") before.rules after.rules
  transforms : Decodes decodeTransforms (members.lookup "transformation_rules") before.transforms
    after.transforms

theorem Draft.read_eq_ok_iff (name : String) (value : Value) (before after : Draft) :
    before.read name value = .ok after ↔ Draft.Reads [(name, value)] before after := by
  obtain ⟨method, source, target, rules, transforms⟩ := before
  obtain ⟨newMethod, newSource, newTarget, newRules, newTransforms⟩ := after
  unfold Draft.read
  split
  case h_6 noMethod noSource noTarget noRules noTransforms =>
    have other {part : String} (differs : name = part → False) :
        [(name, value)].lookup part = none := by
      simp [List.lookup_cons, beq_false_of_ne (Ne.symm differs)]
    simp [reads_iff, other noMethod, other noSource, other noTarget, other noRules,
      other noTransforms]
  all_goals
    simp [reads_iff, bind_eq_ok_iff, map_eq_ok_iff, List.lookup_cons, decodeSomeMethod]
    grind

theorem Draft.reads_cons_iff {name : String} {value : Value} {members : List (String × Value)}
    (absent : members.lookup name = none) (before after : Draft) :
    Draft.Reads ((name, value) :: members) before after ↔
      ∃ next, Draft.Reads [(name, value)] before next ∧ Draft.Reads members next after := by
  constructor
  · intro reads
    obtain ⟨method, methodFirst, methodRest⟩ := (decodes_cons _ absent _ _ _).mp reads.method
    obtain ⟨source, sourceFirst, sourceRest⟩ := (decodes_cons _ absent _ _ _).mp reads.source
    obtain ⟨target, targetFirst, targetRest⟩ := (decodes_cons _ absent _ _ _).mp reads.target
    obtain ⟨rules, rulesFirst, rulesRest⟩ := (decodes_cons _ absent _ _ _).mp reads.rules
    obtain ⟨transforms, transformsFirst, transformsRest⟩ :=
      (decodes_cons _ absent _ _ _).mp reads.transforms
    exact ⟨⟨method, source, target, rules, transforms⟩,
      ⟨methodFirst, sourceFirst, targetFirst, rulesFirst, transformsFirst⟩,
      ⟨methodRest, sourceRest, targetRest, rulesRest, transformsRest⟩⟩
  · rintro ⟨next, first, rest⟩
    exact ⟨(decodes_cons _ absent _ _ _).mpr ⟨_, first.method, rest.method⟩,
      (decodes_cons _ absent _ _ _).mpr ⟨_, first.source, rest.source⟩,
      (decodes_cons _ absent _ _ _).mpr ⟨_, first.target, rest.target⟩,
      (decodes_cons _ absent _ _ _).mpr ⟨_, first.rules, rest.rules⟩,
      (decodes_cons _ absent _ _ _).mpr ⟨_, first.transforms, rest.transforms⟩⟩

theorem Draft.foldlM_read_eq_ok_iff {members : List (String × Value)}
    (distinct : (members.map (·.1)).Nodup) (before after : Draft) :
    members.foldlM (fun directive (name, value) => directive.read name value) before = .ok after ↔
      Draft.Reads members before after := by
  induction members generalizing before with
  | nil =>
    obtain ⟨method, source, target, rules, transforms⟩ := before
    obtain ⟨newMethod, newSource, newTarget, newRules, newTransforms⟩ := after
    simp [reads_iff]
  | cons member members ih =>
    obtain ⟨name, value⟩ := member
    rw [List.map_cons, List.nodup_cons] at distinct
    rw [List.foldlM_cons, bind_eq_ok_iff, reads_cons_iff (Value.lookup_eq_none distinct.1)]
    simp only [read_eq_ok_iff, ih distinct.2]

theorem Draft.readAll_eq_ok_iff {members : List (String × Value)}
    (distinct : (members.map (·.1)).Nodup) (draft : Draft) :
    Draft.readAll members = .ok draft ↔ Draft.Reads members {} draft :=
  foldlM_read_eq_ok_iff distinct {} draft

def Draft.ofDirective (directive : Directive) : Draft where
  method := some directive.method
  source := directive.source
  target := directive.target
  rules := directive.rules
  transforms := directive.transforms

theorem Draft.finish_eq_ok_iff (draft : Draft) (missing : DecodeError) (directive : Directive) :
    draft.finish missing = .ok directive ↔ draft = .ofDirective directive := by
  obtain ⟨method, source, target, rules, transforms⟩ := draft
  obtain ⟨newMethod, newSource, newTarget, newRules, newTransforms⟩ := directive
  cases method <;> simp [finish, ofDirective]

theorem decodeDirective_object_iff {members : List (String × Value)}
    (distinct : (members.map (·.1)).Nodup) (directive : Directive) :
    decodeDirective (.object members) = .ok directive ↔
      Draft.Reads members {} (.ofDirective directive) := by
  simp only [decodeDirective, bind_eq_ok_iff, Draft.readAll_eq_ok_iff distinct,
    Draft.finish_eq_ok_iff, exists_eq_right]

theorem map_fst_zip_sublist {α β : Type} (names : List α) (items : List β) :
    ((names.zip items).map (·.1)).Sublist names := by
  induction names generalizing items with
  | nil => simp
  | cons name names ih =>
    cases items with
    | nil => simp
    | cons item items => simpa using ih items

theorem reads_of_decodeDirective {value : Value} (formed : value.WellFormed) {directive : Directive}
    (decoded : decodeDirective value = .ok directive) :
    ∃ members, (∀ member ∈ members, member.2.WellFormed) ∧
      Draft.Reads members {} (.ofDirective directive) := by
  cases value with
  | object members =>
    rw [Value.wellFormed_object_iff] at formed
    exact ⟨members, formed.2, (decodeDirective_object_iff formed.1 directive).mp decoded⟩
  | array items =>
    rw [Value.wellFormed_array_iff] at formed
    have distinct : ((partNames.zip items).map (·.1)).Nodup :=
      (map_fst_zip_sublist partNames items).nodup (by decide)
    simp only [decodeDirective, bind_eq_ok_iff, Draft.readAll_eq_ok_iff distinct,
      Draft.finish_eq_ok_iff] at decoded
    obtain ⟨_, reads, finished, rfl, rest⟩ := decoded
    refine ⟨partNames.zip items, fun member listed => formed _ (List.of_mem_zip listed).2, ?_⟩
    refine of_ite rest (fun failed => by cases failed) fun done => ?_
    cases done
    exact reads
  | _ => cases decoded

def Sorted (pipelines : List (String × List Directive)) : Prop :=
  pipelines.Pairwise fun first second => first.1 < second.1

section

variable {name : String} {directives : List Directive} {pipelines : List (String × List Directive)}

theorem insertPipeline_perm (fresh : name ∉ pipelines.map (·.1)) :
    (insertPipeline name directives pipelines).Perm ((name, directives) :: pipelines) := by
  induction pipelines with
  | nil => exact List.Perm.refl _
  | cons pipeline pipelines ih =>
    rw [List.map_cons, List.mem_cons, not_or] at fresh
    rw [insertPipeline, if_neg fresh.1]
    split
    · exact List.Perm.refl _
    · exact ((ih fresh.2).cons pipeline).trans (List.Perm.swap _ _ _)

theorem sorted_insertPipeline (fresh : name ∉ pipelines.map (·.1)) (sorted : Sorted pipelines) :
    Sorted (insertPipeline name directives pipelines) := by
  induction pipelines with
  | nil => exact List.pairwise_singleton _ _
  | cons pipeline pipelines ih =>
    obtain ⟨after, sortedRest⟩ := List.pairwise_cons.mp sorted
    rw [List.map_cons, List.mem_cons, not_or] at fresh
    rw [insertPipeline, if_neg fresh.1]
    split
    · rename_i before
      refine List.pairwise_cons.mpr ⟨fun other listed => ?_, sorted⟩
      rcases List.mem_cons.mp listed with rfl | listed
      · exact before
      · exact String.lt_trans before (after other listed)
    · rename_i notBefore
      have first : pipeline.1 < name :=
        Std.lt_of_le_of_ne (String.not_lt.mp notBefore) (Ne.symm fresh.1)
      refine List.pairwise_cons.mpr ⟨fun other listed => ?_, ih fresh.2 sortedRest⟩
      rcases List.mem_cons.mp ((insertPipeline_perm fresh.2).mem_iff.mp listed) with rfl | listed
      · exact first
      · exact after other listed

theorem insertPipelines_sorts {read : List (String × List Directive)}
    (distinct : ((pipelines ++ read).map (·.1)).Nodup) (sorted : Sorted pipelines) :
    let all := read.foldl (fun built (name, ds) => insertPipeline name ds built) pipelines
    Sorted all ∧ all.Perm (pipelines ++ read) := by
  induction read generalizing pipelines with
  | nil => exact ⟨sorted, by simp⟩
  | cons pipeline read ih =>
    obtain ⟨name, ds⟩ := pipeline
    have fresh := Value.fresh_of_nodup distinct
    have inserted : (insertPipeline name ds pipelines ++ read).Perm
        (pipelines ++ (name, ds) :: read) :=
      ((insertPipeline_perm fresh).append_right read).trans List.perm_middle.symm
    have insertedDistinct := (inserted.map (·.1)).nodup_iff.mpr distinct
    obtain ⟨allSorted, all⟩ := ih insertedDistinct (sorted_insertPipeline fresh sorted)
    exact ⟨allSorted, all.trans inserted⟩

end

def ReadsPipeline (member : String × Value) (pipeline : String × List Directive) : Prop :=
  pipeline.1 = member.1 ∧ decodeDirectives member.2 = .ok pipeline.2

theorem names_of_readsPipeline {members : List (String × Value)}
    {read : List (String × List Directive)} (reads : List.Forall₂ ReadsPipeline members read) :
    read.map (·.1) = members.map (·.1) := by
  induction reads with
  | nil => rfl
  | cons first _ ih => rw [List.map_cons, List.map_cons, first.1, ih]

theorem mapM_readsPipeline_iff (members : List (String × Value))
    (read : List (String × List Directive)) :
    (members.mapM fun (name, value) => return (name, ← decodeDirectives value)) = .ok read ↔
      List.Forall₂ ReadsPipeline members read := by
  rw [mapM_eq_ok_iff]
  have step (member : String × Value) (pipeline : String × List Directive) :
      (do return (member.1, ← decodeDirectives member.2)) = .ok pipeline ↔
        ReadsPipeline member pipeline := by
    obtain ⟨name, directives⟩ := pipeline
    simp only [bind_eq_ok_iff, ReadsPipeline, pure_eq_ok, Except.ok.injEq, Prod.mk.injEq]
    constructor
    · rintro ⟨_, decoded, rfl, rfl⟩
      exact ⟨rfl, decoded⟩
    · rintro ⟨rfl, decoded⟩
      exact ⟨directives, decoded, rfl, rfl⟩
  simp only [step]

theorem decodePipelines_object_iff {members : List (String × Value)}
    (distinct : (members.map (·.1)).Nodup) (mapping : Mapping) :
    decodePipelines (.object members) = .ok mapping ↔
      Sorted mapping.pipelines ∧
        ∃ read, List.Forall₂ ReadsPipeline members read ∧ mapping.pipelines.Perm read := by
  have sorts {read : List (String × List Directive)}
      (reads : List.Forall₂ ReadsPipeline members read) := by
    have distinctRead : (read.map (·.1)).Nodup := by rwa [names_of_readsPipeline reads]
    exact @insertPipelines_sorts [] read distinctRead List.Pairwise.nil
  simp only [decodePipelines, bind_eq_ok_iff, mapM_readsPipeline_iff]
  constructor
  · rintro ⟨read, reads, ⟨⟩⟩
    exact ⟨(sorts reads).1, read, reads, (sorts reads).2⟩
  · rintro ⟨sorted, read, reads, all⟩
    refine ⟨read, reads, ?_⟩
    -- No two orders of the same pipelines are sorted.
    have same := ((sorts reads).2.trans all.symm).eq_of_pairwise
      (fun _ _ _ _ before after => absurd after (String.lt_asymm before)) (sorts reads).1 sorted
    rw [same]
    rfl

end Reconcile.Mapping
