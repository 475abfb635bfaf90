import Reconcile.Proofs.Json.Shape
import Reconcile.Proofs.Mapping.Reading

namespace Reconcile

/-- An address that some text is read as. -/
def Address.Canonical (address : Address) : Prop := ∃ text, address = .parse text

def Rule.Canonical (rule : Rule) : Prop :=
  ∀ name, rule = .unrecognized name → name ≠ Rule.equal.name ∧ name ≠ Rule.equalStripped.name

def Transform.Canonical : Transform → Prop
  | .removePrefix address => address.Canonical
  | .timeFormat .storeHours => True
  | .timeFormat (.other name) => name ≠ TimeFormat.storeHoursName
  | .unrecognized name => name ≠ removePrefixName ∧ name ≠ timeFormatName

structure Directive.Canonical (directive : Directive) : Prop where
  source : ∀ address ∈ directive.source, address.Canonical
  target : ∀ address ∈ directive.target, address.Canonical
  rules : ∀ rule ∈ directive.rules.rules, rule.Canonical
  transforms : ∀ transform ∈ directive.transforms, transform.Canonical
  distinct : (directive.transforms.map Transform.name).Nodup

structure Mapping.Canonical (mapping : Mapping) : Prop where
  sorted : Mapping.Sorted mapping.pipelines
  directives : ∀ pipeline ∈ mapping.pipelines, ∀ directive ∈ pipeline.2, directive.Canonical

namespace Mapping

open Fallible

variable {value : Value}

theorem canonical_of_decodeAddress {address : Option Address}
    (decoded : decodeAddress value = .ok address) : ∀ found ∈ address, found.Canonical := by
  cases value with
  | string text =>
    cases decoded
    simp [Address.Canonical]
  | null =>
    cases decoded
    simp
  | _ => cases decoded

theorem canonical_ofName (name : String) : (Rule.ofName name).Canonical := by
  intro other same
  unfold Rule.ofName at same
  split at same
  · cases same
  split at same
  · cases same
  · rename_i notEqual notStripped
    cases same
    exact ⟨notEqual, notStripped⟩

theorem canonical_of_rule? {rule : Rule} (found : rule? value = some rule) : rule.Canonical := by
  unfold rule? at found
  split at found
  · split at found
    · cases found
      exact canonical_ofName _
    · cases found
  · cases found
    exact canonical_ofName _
  · cases found

theorem canonical_of_decodeRules {rules : RuleSet} (decoded : decodeRules value = .ok rules) :
    ∀ rule ∈ rules.rules, rule.Canonical := by
  rcases (decodeRules_eq_ok_iff value rules).mp decoded with ⟨list, found, rfl⟩ |
    ⟨-, rule, found, rfl⟩
  · obtain ⟨items, -, read⟩ := (sequence?_eq_some_iff value list).mp found
    exact forall_of_forall₂ read fun _ _ _ => canonical_of_rule?
  · simpa [RuleSet.rules] using canonical_of_rule? found

theorem json_ne_storeHoursName (value : Value) : value.json ≠ TimeFormat.storeHoursName := by
  intro same
  obtain ⟨c, rest, written, first⟩ := value.jsonChars_eq_cons
  have chars : value.jsonChars = TimeFormat.storeHoursName.toList := by
    rw [← same, Value.json, String.toList_ofList]
  rw [written] at chars
  have letter : c = 's' := (List.cons.inj chars).1
  subst letter
  cases first

theorem of_decodeTransform {name : String} {transform : Transform}
    (decoded : decodeTransform name value = .ok transform) :
    transform.name = name ∧ transform.Canonical := by
  unfold decodeTransform at decoded
  split at decoded
  · rename_i isPrefix
    split at decoded
    · cases decoded
      exact ⟨isPrefix.symm, _, rfl⟩
    · cases decoded
  split at decoded
  · rename_i isTime
    split at decoded
    · rename_i format
      cases decoded
      refine ⟨isTime.symm, ?_⟩
      unfold TimeFormat.ofName
      split
      · trivial
      · rename_i other
        exact other
    · cases decoded
      exact ⟨isTime.symm, json_ne_storeHoursName value⟩
  · rename_i noPrefix noTime
    cases decoded
    exact ⟨rfl, noPrefix, noTime⟩

theorem canonical_of_decodeTransforms (formed : value.WellFormed) {transforms : List Transform}
    (decoded : decodeTransforms value = .ok transforms) :
    (∀ transform ∈ transforms, transform.Canonical) ∧ (transforms.map Transform.name).Nodup := by
  cases value with
  | null =>
    cases decoded
    simp
  | object members =>
    rw [Value.wellFormed_object_iff] at formed
    have steps := (decodeTransforms_object_iff members transforms).mp decoded
    refine ⟨forall_of_forall₂ steps fun _ _ _ read => (of_decodeTransform read).2, ?_⟩
    have names : transforms.map Transform.name = members.map (·.1) := by
      rw [← List.forall₂_eq_eq_eq, List.forall₂_map_left_iff, List.forall₂_map_right_iff]
      exact steps.flip.imp fun _ _ read => (of_decodeTransform read).1
    rw [names]
    exact formed.1
  | _ => cases decoded

theorem good_of_decodes {α : Type} (good : α → Prop) {decode : Decode α}
    {members : List (String × Value)} {name : String} {before after : α}
    (decodes : Decodes decode (members.lookup name) before after) (start : good before)
    (read : ∀ value, (name, value) ∈ members → decode value = .ok after → good after) :
    good after := by
  cases found : members.lookup name with
  | none =>
    rw [found, decodes_none] at decodes
    exact decodes ▸ start
  | some value =>
    rw [found, decodes_some] at decodes
    obtain ⟨front, back, split, -⟩ := List.lookup_eq_some_iff.mp found
    exact read value (by simp [split]) decodes

theorem canonical_of_decodeDirective (formed : value.WellFormed) {directive : Directive}
    (decoded : decodeDirective value = .ok directive) : directive.Canonical := by
  obtain ⟨members, formedMembers, reads⟩ := reads_of_decodeDirective formed decoded
  let CanonicalAddress (address : Option Address) := ∀ found ∈ address, found.Canonical
  have source := good_of_decodes CanonicalAddress reads.source (by simp [CanonicalAddress])
    fun _ _ => canonical_of_decodeAddress
  have target := good_of_decodes CanonicalAddress reads.target (by simp [CanonicalAddress])
    fun _ _ => canonical_of_decodeAddress
  have rules := good_of_decodes (fun rules => ∀ rule ∈ rules.rules, rule.Canonical) reads.rules
    (by simp [RuleSet.rules]) fun _ _ => canonical_of_decodeRules
  have transforms := good_of_decodes (fun transforms =>
    (∀ transform ∈ transforms, transform.Canonical) ∧ (transforms.map Transform.name).Nodup)
    reads.transforms (by simp)
    fun value listed => canonical_of_decodeTransforms (formedMembers _ listed)
  exact ⟨source, target, rules, transforms.1, transforms.2⟩

theorem canonical_of_decodeDirectives (formed : value.WellFormed) {directives : List Directive}
    (decoded : decodeDirectives value = .ok directives) :
    ∀ directive ∈ directives, directive.Canonical := by
  cases value with
  | array items =>
    rw [Value.wellFormed_array_iff] at formed
    exact forall_of_forall₂ ((mapM_eq_ok_iff _ _ _).mp decoded) fun item listed _ =>
      canonical_of_decodeDirective (formed item listed)
  | _ => cases decoded

theorem canonical_of_decodePipelines (formed : value.WellFormed) {mapping : Mapping}
    (decoded : decodePipelines value = .ok mapping) : mapping.Canonical := by
  cases value with
  | object members =>
    rw [Value.wellFormed_object_iff] at formed
    obtain ⟨sorted, read, reads, all⟩ := (decodePipelines_object_iff formed.1 mapping).mp decoded
    refine ⟨sorted, fun pipeline listed => ?_⟩
    have every := forall_of_forall₂ reads fun member present _ reads =>
      canonical_of_decodeDirectives (formed.2 member present) reads.2
    exact every pipeline (all.mem_iff.mp listed)
  | _ => cases decoded

theorem canonical_empty : (⟨[]⟩ : Mapping).Canonical := ⟨List.Pairwise.nil, by simp⟩

/-- Whatever document a mapping is read from, it is canonical. -/
theorem canonical_of_decode (formed : value.WellFormed) {mapping : Mapping}
    (decoded : decode value = .ok mapping) : mapping.Canonical := by
  unfold decode at decoded
  split at decoded
  · rename_i members
    rw [Value.wellFormed_object_iff] at formed
    split at decoded
    · rename_i pipelines found
      have listed := (Value.lookup_eq_some_iff_mem formed.1 _ _).mp found
      exact canonical_of_decodePipelines (formed.2 _ listed) decoded
    · cases decoded
      exact canonical_empty
  · cases decoded
    exact canonical_empty
  · rename_i first more
    rw [Value.wellFormed_array_iff, List.forall_mem_cons] at formed
    obtain ⟨read, pipelines, rest⟩ := (bind_eq_ok_iff _ _ _).mp decoded
    refine of_ite rest (fun done => ?_) fun failed => by cases failed
    cases done
    exact canonical_of_decodePipelines formed.1 pipelines
  · cases decoded

end Mapping

end Reconcile
