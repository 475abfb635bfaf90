import Reconcile.Proofs.Address
import Reconcile.Proofs.Mapping.Canonical

namespace Reconcile

def Method.IsWritten (method : Method) (name : String) : Prop :=
  match method with
  | .byPath => name = "pathbasedcompare" ∨ name = "pathBasedCompare"
  | .sameFile => name = "sameFile"
  | .unsupported => name ∉ ["pathbasedcompare", "pathBasedCompare", "sameFile"]

inductive WritesAddress : Option Address → Option Value → Prop
  | leftOut : WritesAddress none none
  | null : WritesAddress none (some .null)
  | text (address : Address) : WritesAddress (some address) (some (.string address.text))

def Rule.IsWritten (rule : Rule) (value : Value) : Prop :=
  value.member? "ruleName" = some (.string rule.name)

inductive WritesRules : RuleSet → Option Value → Prop
  | leftOut : WritesRules (.sequence []) none
  | list {rules : List Rule} {items : List Value} (all : List.Forall₂ Rule.IsWritten rules items) :
      WritesRules (.sequence rules) (some (.array items))
  | single {rule : Rule} {value : Value} (one : rule.IsWritten value) :
      WritesRules (.single rule) (some value)

/-- Nothing is kept of the parameter of an unknown transform, so it may be any. -/
inductive WritesTransform : Transform → String × Value → Prop
  | removePrefix (address : Address) :
      WritesTransform (.removePrefix address) (Transform.removePrefixName, .string address.text)
  | storeHours : WritesTransform (.timeFormat .storeHours)
      (Transform.timeFormatName, .string TimeFormat.storeHoursName)
  | timeFormat (name : String) :
      WritesTransform (.timeFormat (.other name)) (Transform.timeFormatName, .string name)
  | unrecognized (name : String) (parameter : Value) :
      WritesTransform (.unrecognized name) (name, parameter)

inductive WritesTransforms : List Transform → Option Value → Prop
  | leftOut : WritesTransforms [] none
  | null : WritesTransforms [] (some .null)
  | members {transforms : List Transform} {members : List (String × Value)}
      (all : List.Forall₂ WritesTransform transforms members) :
      WritesTransforms transforms (some (.object members))

structure Directive.IsWritten (directive : Directive) (value : Value) : Prop where
  method : ∃ name, value.member? "method" = some (.string name) ∧ directive.method.IsWritten name
  source : WritesAddress directive.source (value.member? "source_path")
  target : WritesAddress directive.target (value.member? "target_path")
  rules : WritesRules directive.rules (value.member? "rules")
  transforms : WritesTransforms directive.transforms (value.member? "transformation_rules")

def WritesPipeline (pipeline : String × List Directive) (member : String × Value) : Prop :=
  member.1 = pipeline.1 ∧ ∃ items, member.2 = .array items ∧
    List.Forall₂ Directive.IsWritten pipeline.2 items

def Mapping.IsWritten (mapping : Mapping) (value : Value) : Prop :=
  ∃ pipelines members, value.member? "mapping" = some (.object members) ∧
    mapping.pipelines.Perm pipelines ∧ List.Forall₂ WritesPipeline pipelines members

namespace Mapping

open Fallible

theorem methodOfName_of_isWritten {method : Method} {name : String}
    (written : method.IsWritten name) : methodOfName name = method := by
  cases method with
  | byPath => exact if_pos written
  | sameFile =>
    rw [show name = "sameFile" from written]
    rfl
  | unsupported =>
    simp only [Method.IsWritten, List.mem_cons, List.not_mem_nil, or_false, not_or] at written
    simp [methodOfName, written]

theorem decodes_of_writesAddress {address : Option Address} {found : Option Value}
    (written : WritesAddress address found)
    (canonical : ∀ stored ∈ address, stored.Canonical) :
    Decodes decodeAddress found none address := by
  cases written with
  | leftOut => rfl
  | null => rfl
  | text address =>
    obtain ⟨text, rfl⟩ := canonical address rfl
    rw [decodes_some, decodeAddress, Address.parse_text_parse]

theorem ofName_name {rule : Rule} (canonical : rule.Canonical) : Rule.ofName rule.name = rule := by
  cases rule with
  | equal => rfl
  | equalStripped => rfl
  | unrecognized name =>
    obtain ⟨notEqual, notStripped⟩ := canonical name rfl
    exact (if_neg notEqual).trans (if_neg notStripped)

theorem rule?_of_isWritten {rule : Rule} (canonical : rule.Canonical) {value : Value}
    (written : rule.IsWritten value) : rule? value = some rule := by
  cases value with
  | object members =>
    have found : members.lookup "ruleName" = some (.string rule.name) := written
    simp only [rule?, found, ofName_name canonical]
  | _ => cases written

theorem decodes_of_writesRules {rules : RuleSet} {found : Option Value}
    (written : WritesRules rules found) (canonical : ∀ rule ∈ rules.rules, rule.Canonical) :
    Decodes decodeRules found (.sequence []) rules := by
  cases written with
  | leftOut => rfl
  | @list rules items all =>
    have read : List.Forall₂ (rule? · = some ·) items rules :=
      forall₂_back all fun rule listed _ _ => rule?_of_isWritten (canonical rule listed)
    rw [decodes_some, decodeRules_eq_ok_iff]
    exact .inl ⟨rules, (sequence?_eq_some_iff _ _).mpr ⟨items, rfl, read⟩, rfl⟩
  | @single rule value one =>
    have read := rule?_of_isWritten (canonical rule List.mem_cons_self) one
    have noList : sequence? value = none := by
      cases value with
      | object members => rfl
      | _ => cases one
    rw [decodes_some, decodeRules_eq_ok_iff]
    exact .inr ⟨noList, rule, read, rfl⟩

theorem decodeTransform_of_writesTransform {transform : Transform} (canonical : transform.Canonical)
    {member : String × Value} (written : WritesTransform transform member) :
    decodeTransform member.1 member.2 = .ok transform := by
  cases written with
  | removePrefix address =>
    obtain ⟨text, rfl⟩ := canonical
    rw [decodeTransform, if_pos rfl]
    simp only [Address.parse_text_parse]
  | storeHours => rfl
  | timeFormat name =>
    have other : TimeFormat.ofName name = .other name := if_neg canonical
    have noPrefix : Transform.timeFormatName ≠ Transform.removePrefixName := by decide
    rw [decodeTransform, if_neg noPrefix, if_pos rfl]
    simp only [other]
  | unrecognized name parameter => exact (if_neg canonical.1).trans (if_neg canonical.2)

theorem decodes_of_writesTransforms {transforms : List Transform} {found : Option Value}
    (written : WritesTransforms transforms found)
    (canonical : ∀ transform ∈ transforms, transform.Canonical) :
    Decodes decodeTransforms found [] transforms := by
  cases written with
  | leftOut => rfl
  | null => rfl
  | @members transforms members all =>
    rw [decodes_some, decodeTransforms_object_iff]
    exact forall₂_back all fun transform listed _ _ =>
      decodeTransform_of_writesTransform (canonical transform listed)

theorem decodeDirective_of_isWritten {directive : Directive} (canonical : directive.Canonical)
    {value : Value} (formed : value.WellFormed) (written : directive.IsWritten value) :
    decodeDirective value = .ok directive := by
  obtain ⟨name, found, isName⟩ := written.method
  cases value with
  | object members =>
    rw [Value.wellFormed_object_iff] at formed
    rw [decodeDirective_object_iff formed.1]
    refine ⟨?_, decodes_of_writesAddress written.source canonical.source,
      decodes_of_writesAddress written.target canonical.target,
      decodes_of_writesRules written.rules canonical.rules,
      decodes_of_writesTransforms written.transforms canonical.transforms⟩
    rw [show members.lookup "method" = some (.string name) from found, decodes_some]
    rw [decodeSomeMethod, decodeMethod, methodOfName_of_isWritten isName]
    rfl
  | _ => cases found

theorem decode_of_isWritten {mapping : Mapping} (canonical : mapping.Canonical) {value : Value}
    (formed : value.WellFormed) (written : mapping.IsWritten value) :
    decode value = .ok mapping := by
  obtain ⟨pipelines, members, found, all, writes⟩ := written
  cases value with
  | object outer =>
    rw [Value.wellFormed_object_iff] at formed
    have lookup : outer.lookup "mapping" = some (.object members) := found
    have inner := formed.2 _ ((Value.lookup_eq_some_iff_mem formed.1 _ _).mp lookup)
    rw [Value.wellFormed_object_iff] at inner
    simp only [decode, lookup]
    rw [decodePipelines_object_iff inner.1]
    refine ⟨canonical.sorted, pipelines, forall₂_back writes ?_, all⟩
    rintro pipeline listed ⟨_, _⟩ present ⟨rfl, items, rfl, directives⟩
    refine ⟨rfl, (mapM_eq_ok_iff _ _ _).mpr (forall₂_back directives ?_)⟩
    intro directive inPipeline item inItems
    have itemFormed := (Value.wellFormed_array_iff items).mp (inner.2 _ present) item inItems
    exact decodeDirective_of_isWritten
      (canonical.directives pipeline (all.mem_iff.mpr listed) directive inPipeline) itemFormed
  | _ => cases found

end Mapping

def Rule.document (rule : Rule) : Value := .object [("ruleName", .string rule.name)]

def RuleSet.document : RuleSet → Value
  | .sequence rules => .array (rules.map Rule.document)
  | .single rule => rule.document

def addressDocument : Option Address → Value
  | some address => .string address.text
  | none => .null

def Transform.parameter : Transform → Value
  | .removePrefix address => .string address.text
  | .timeFormat .storeHours => .string TimeFormat.storeHoursName
  | .timeFormat (.other name) => .string name
  | .unrecognized _ => .null

def Directive.document (directive : Directive) : Value :=
  .object [
    ("method", .string directive.method.label),
    ("source_path", addressDocument directive.source),
    ("target_path", addressDocument directive.target),
    ("rules", directive.rules.document),
    ("transformation_rules",
      .object (directive.transforms.map fun transform => (transform.name, transform.parameter)))]

def pipelineMember (pipeline : String × List Directive) : String × Value :=
  (pipeline.1, .array (pipeline.2.map Directive.document))

def Mapping.document (mapping : Mapping) : Value :=
  .object [("mapping", .object (mapping.pipelines.map pipelineMember))]

theorem writesAddress_document (address : Option Address) :
    WritesAddress address (some (addressDocument address)) := by
  cases address with
  | none => exact .null
  | some address => exact .text address

theorem forall₂_map {α β : Type} {written : α → β → Prop} {document : α → β}
    (all : ∀ a, written a (document a)) (items : List α) :
    List.Forall₂ written items (items.map document) := by
  rw [List.forall₂_map_right_iff, List.forall₂_same]
  exact fun item _ => all item

theorem Rule.isWritten_document (rule : Rule) : rule.IsWritten rule.document := rfl

theorem RuleSet.writesRules_document (rules : RuleSet) :
    WritesRules rules (some rules.document) := by
  cases rules with
  | sequence rules => exact .list (forall₂_map Rule.isWritten_document rules)
  | single rule => exact .single rule.isWritten_document

theorem Transform.writesTransform_parameter (transform : Transform) :
    WritesTransform transform (transform.name, transform.parameter) := by
  cases transform with
  | removePrefix address => exact .removePrefix address
  | timeFormat format =>
    cases format with
    | storeHours => exact .storeHours
    | other name => exact .timeFormat name
  | unrecognized name => exact .unrecognized name .null

theorem Method.isWritten_label (method : Method) : method.IsWritten method.label := by
  cases method with
  | byPath => exact .inl rfl
  | sameFile => rfl
  | unsupported =>
    rw [Method.IsWritten]
    decide

theorem Directive.isWritten_document (directive : Directive) :
    directive.IsWritten directive.document where
  method := ⟨_, rfl, directive.method.isWritten_label⟩
  source := writesAddress_document directive.source
  target := writesAddress_document directive.target
  rules := directive.rules.writesRules_document
  transforms := .members (forall₂_map Transform.writesTransform_parameter directive.transforms)

theorem Mapping.isWritten_document (mapping : Mapping) : mapping.IsWritten mapping.document := by
  refine ⟨mapping.pipelines, _, rfl, List.Perm.refl _, forall₂_map (fun pipeline => ?_) _⟩
  exact ⟨rfl, _, rfl, forall₂_map Directive.isWritten_document pipeline.2⟩

theorem Rule.wellFormed_document (rule : Rule) : rule.document.WellFormed := by
  simp [Rule.document, Value.wellFormed_object_iff, Value.WellFormed]

theorem RuleSet.wellFormed_document (rules : RuleSet) : rules.document.WellFormed := by
  cases rules with
  | sequence rules =>
    rw [RuleSet.document, Value.wellFormed_array_iff, List.forall_mem_map]
    exact fun rule _ => rule.wellFormed_document
  | single rule => exact rule.wellFormed_document

theorem wellFormed_addressDocument (address : Option Address) :
    (addressDocument address).WellFormed := by
  cases address <;> trivial

theorem Transform.wellFormed_parameter (transform : Transform) :
    transform.parameter.WellFormed := by
  cases transform with
  | timeFormat format => cases format <;> trivial
  | _ => trivial

theorem Directive.wellFormed_document {directive : Directive} (canonical : directive.Canonical) :
    directive.document.WellFormed := by
  have transforms : (Value.object (directive.transforms.map fun transform =>
      (transform.name, transform.parameter))).WellFormed := by
    rw [Value.wellFormed_object_iff, List.map_map, List.forall_mem_map]
    exact ⟨canonical.distinct, fun transform _ => transform.wellFormed_parameter⟩
  rw [Directive.document, Value.wellFormed_object_iff]
  refine ⟨by simp, ?_⟩
  simp only [List.forall_mem_cons]
  exact ⟨trivial, wellFormed_addressDocument _, wellFormed_addressDocument _,
    directive.rules.wellFormed_document, transforms, by simp⟩

theorem Mapping.wellFormed_document {mapping : Mapping} (canonical : mapping.Canonical) :
    mapping.document.WellFormed := by
  have names : ((mapping.pipelines.map pipelineMember).map (·.1)).Nodup := by
    rw [List.map_map, List.Nodup, List.pairwise_map]
    refine canonical.sorted.imp fun {first second} before same => ?_
    have same : first.1 = second.1 := same
    exact String.lt_irrefl second.1 (same ▸ before)
  have pipelines : (Value.object (mapping.pipelines.map pipelineMember)).WellFormed := by
    rw [Value.wellFormed_object_iff, List.forall_mem_map]
    refine ⟨names, fun pipeline listed => ?_⟩
    rw [pipelineMember, Value.wellFormed_array_iff, List.forall_mem_map]
    exact fun directive inPipeline =>
      Directive.wellFormed_document (canonical.directives pipeline listed directive inPipeline)
  rw [Mapping.document, Value.wellFormed_object_iff]
  exact ⟨by simp, by simpa using pipelines⟩

/-- A canonical mapping is read back from its written forms, of which there is always one, and only
canonical mappings are read from any document. -/
theorem Mapping.decode_written (mapping : Mapping) :
    (mapping.Canonical → ∀ value, value.WellFormed → mapping.IsWritten value →
      decode value = .ok mapping) ∧
    (mapping.Canonical → mapping.document.WellFormed ∧ mapping.IsWritten mapping.document) ∧
    (∀ value, value.WellFormed → decode value = .ok mapping → mapping.Canonical) ∧
    ∀ text, Address.parse (Address.parse text).text = Address.parse text :=
  ⟨fun canonical _ => decode_of_isWritten canonical,
    fun canonical => ⟨wellFormed_document canonical, mapping.isWritten_document⟩,
    fun _ formed => canonical_of_decode formed, Address.parse_text_parse⟩

def sampleMapping : Mapping where
  pipelines := [
    ("hours", [{
      method := .byPath
      source := some ⟨"hours", .field⟩
      target := some ⟨"$.hours", .unrecognized ""⟩
      rules := .sequence [.equal, .unrecognized "roughlyEqual"]
      transforms := [
        .timeFormat .storeHours, .unrecognized "uppercase", .removePrefix ⟨"$.zone", .query⟩] }]),
    ("prices", [{
      method := .sameFile
      source := none
      target := none
      rules := .single .equalStripped
      transforms := [] }])]

def sampleDocument : Value :=
  .object [
    ("version", .string "2"),
    ("mapping", .object [
      ("prices", .array [.object [
        ("rules", .object [("note", .null), ("ruleName", .string "equalValueAfterStripSpaces")]),
        ("transformation_rules", .null),
        ("method", .string "sameFile")]]),
      ("hours", .array [.object [
        ("method", .string "pathBasedCompare"),
        ("source_path", .string "hours|path"),
        ("owner", .string "stores"),
        ("target_path", .string "$.hours"),
        ("transformation_rules", .object [
          ("timeFormatChange", .string "storeHoursTransformation"), ("uppercase", .bool true),
          ("removePreText", .string "$.zone|jsonpath")]),
        ("rules", .array [.object [("ruleName", .string "equalValue")],
          .object [("ruleName", .string "roughlyEqual"), ("weight", .null)]])]])])]

theorem sampleMapping_canonical : sampleMapping.Canonical where
  sorted := List.pairwise_pair.mpr (show "hours" < "prices" by decide)
  directives := by
    have hours : Address.Canonical ⟨"hours", .field⟩ := ⟨"hours|path", by decide⟩
    have path : Address.Canonical ⟨"$.hours", .unrecognized ""⟩ := ⟨"$.hours", by decide⟩
    have zone : Address.Canonical ⟨"$.zone", .query⟩ := ⟨"$.zone|jsonpath", by decide⟩
    simp only [sampleMapping, List.forall_mem_cons, List.not_mem_nil, IsEmpty.forall_iff,
      implies_true, and_true]
    constructor
    · constructor
      · simpa using hours
      · simpa using path
      · simp [RuleSet.rules, Rule.Canonical, Rule.name]
      · simp [Transform.Canonical, zone, Transform.removePrefixName, Transform.timeFormatName]
      · simp [Transform.name, Transform.removePrefixName, Transform.timeFormatName]
    · constructor <;> simp [RuleSet.rules, Rule.Canonical]

theorem sampleDocument_isWritten : sampleMapping.IsWritten sampleDocument := by
  refine ⟨[_, _], _, rfl, List.Perm.swap _ _ _, .cons ⟨rfl, _, rfl, .cons ?_ .nil⟩
    (.cons ⟨rfl, _, rfl, .cons ?_ .nil⟩ .nil)⟩
  · exact ⟨⟨_, rfl, rfl⟩, .leftOut, .leftOut, .single rfl, .null⟩
  · exact ⟨⟨_, rfl, .inr rfl⟩, .text ⟨"hours", .field⟩, .text ⟨"$.hours", .unrecognized ""⟩,
      .list (.cons rfl (.cons rfl .nil)),
      .members (.cons .storeHours (.cons (.unrecognized "uppercase" (.bool true))
        (.cons (.removePrefix ⟨"$.zone", .query⟩) .nil)))⟩

theorem decode_sampleDocument :
    sampleMapping.Canonical ∧ sampleDocument.WellFormed ∧ sampleMapping.IsWritten sampleDocument ∧
      Mapping.decode sampleDocument = .ok sampleMapping := by
  have formed : sampleDocument.WellFormed := by
    simp [sampleDocument, Value.WellFormed, Value.MembersWellFormed, Value.ItemsWellFormed]
  exact ⟨sampleMapping_canonical, formed, sampleDocument_isWritten,
    (Mapping.decode_written sampleMapping).1 sampleMapping_canonical sampleDocument formed
      sampleDocument_isWritten⟩

end Reconcile
