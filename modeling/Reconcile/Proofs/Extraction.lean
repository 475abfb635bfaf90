import Reconcile.Extraction
import Reconcile.Proofs.Fallible

namespace Reconcile

theorem fieldOf_eq_ok_iff (field : String) (element : Value) (index : Nat) (value : Value) :
    fieldOf field element index = .ok value ↔
      ∃ members, element = .object members ∧ members.lookup field = some value := by
  cases element with
  | object members => cases found : members.lookup field <;> simp [fieldOf, found]
  | _ => simp [fieldOf]

theorem fieldOf_eq_error_iff (field : String) (element : Value) (index : Nat)
    (cause : ExtractionError) :
    fieldOf field element index = .error cause ↔
      element.kind ≠ .object ∧ .notObject field index element.kind = cause ∨
      ∃ members, element = .object members ∧ members.lookup field = none ∧
        .missingField field index = cause := by
  cases element with
  | object members =>
    cases found : members.lookup field <;>
      simp [fieldOf, found, Value.kind, -List.lookup_eq_none_iff]
  | _ => simp [fieldOf, Value.kind]

theorem Value.kind_eq_string_iff (value : Value) :
    value.kind = .string ↔ ∃ text, value = .string text := by
  cases value <;> simp [kind]

theorem Operation.textOf_eq_ok_iff (operation : Operation) (value : Value) (text : String) :
    operation.textOf value = .ok text ↔ value = .string text := by
  cases value <;> simp [textOf]

theorem Operation.textOf_eq_error_iff (operation : Operation) (value : Value)
    (cause : InputError) :
    operation.textOf value = .error cause ↔
      value.kind ≠ .string ∧ .notString operation value.kind = cause := by
  cases value <;> simp [textOf, Value.kind]

namespace Address

def extractFrom (selector : String) (transforms : List Transform) (element : Value) (index : Nat) :
    Except Fault Value := do
  let value ← (fieldOf selector element index).mapError .extraction
  Transform.applyAll transforms element value

theorem extract_field (selector : String) (transforms : List Transform) (elements : List Value) :
    extract ⟨selector, .field⟩ transforms (.array elements) =
      elements.zipIdx.mapM fun (element, index) =>
        extractFrom selector transforms element index := rfl

/-- An element gives a value: it is an object with the field, whose value the transforms make into
this one with no other element in view. -/
def Gives (selector : String) (transforms : List Transform) (element result : Value) : Prop :=
  ∃ members value, element = .object members ∧ members.lookup selector = some value ∧
    Transform.applyAll transforms element value = .ok result

def AllGive (selector : String) (transforms : List Transform) (elements : List Value) : Prop :=
  ∀ element ∈ elements, ∃ value, Gives selector transforms element value

/-- Why the element at a position gives no value. -/
inductive ElementFault (selector : String) (transforms : List Transform) (element : Value)
    (index : Nat) : Fault → Prop
  | notObject (other : element.kind ≠ .object) :
      ElementFault selector transforms element index
        (.extraction (.notObject selector index element.kind))
  | missingField {members : List (String × Value)} (object : element = .object members)
      (missing : members.lookup selector = none) :
      ElementFault selector transforms element index (.extraction (.missingField selector index))
  | transform {members : List (String × Value)} {value : Value} {fault : Fault}
      (object : element = .object members) (found : members.lookup selector = some value)
      (failed : Transform.applyAll transforms element value = .error fault) :
      ElementFault selector transforms element index fault

variable {selector : String} {transforms : List Transform}

theorem extractFrom_eq_ok_iff (element : Value) (index : Nat) (result : Value) :
    extractFrom selector transforms element index = .ok result ↔
      Gives selector transforms element result := by
  simp only [extractFrom, Fallible.bind_eq_ok_iff, Fallible.mapError_eq_ok_iff, fieldOf_eq_ok_iff,
    Gives]
  constructor
  · rintro ⟨value, ⟨members, object, found⟩, done⟩
    exact ⟨members, value, object, found, done⟩
  · rintro ⟨members, value, object, found, done⟩
    exact ⟨value, ⟨members, object, found⟩, done⟩

theorem extractFrom_eq_error_iff (element : Value) (index : Nat) (fault : Fault) :
    extractFrom selector transforms element index = .error fault ↔
      ElementFault selector transforms element index fault := by
  simp only [extractFrom, Fallible.bind_eq_error_iff, Fallible.mapError_eq_error_iff,
    Fallible.mapError_eq_ok_iff, fieldOf_eq_error_iff, fieldOf_eq_ok_iff]
  constructor
  · rintro (⟨_, ⟨other, rfl⟩ | ⟨_, object, missing, rfl⟩, rfl⟩ | ⟨_, ⟨_, object, found⟩, failed⟩)
    · exact .notObject other
    · exact .missingField object missing
    · exact .transform object found failed
  · intro wrong
    cases wrong with
    | notObject other => exact .inl ⟨_, .inl ⟨other, rfl⟩, rfl⟩
    | missingField object missing => exact .inl ⟨_, .inr ⟨_, object, missing, rfl⟩, rfl⟩
    | transform object found failed => exact .inr ⟨_, ⟨_, object, found⟩, failed⟩

theorem extract_eq_ok_iff (elements values : List Value) :
    extract ⟨selector, .field⟩ transforms (.array elements) = .ok values ↔
      List.Forall₂ (Gives selector transforms) elements values := by
  simp only [extract_field, Fallible.mapM_eq_ok_iff, extractFrom_eq_ok_iff]
  conv_rhs => rw [← List.zipIdx_map_fst 0 elements, List.forall₂_map_left_iff]

theorem extract_eq_error_iff (elements : List Value) (fault : Fault) :
    extract ⟨selector, .field⟩ transforms (.array elements) = .error fault ↔
      ∃ before element after, elements = before ++ element :: after ∧
        AllGive selector transforms before ∧
        ElementFault selector transforms element before.length fault := by
  simp only [extract_field, Fallible.mapM_eq_error_iff, extractFrom_eq_ok_iff,
    extractFrom_eq_error_iff]
  constructor
  · rintro ⟨numbered, ⟨element, index⟩, rest, split, earlier, wrong⟩
    obtain ⟨before, others, rfl, rfl, last⟩ := List.zipIdx_eq_append_iff.mp split
    obtain ⟨_, after, rfl, here, -⟩ := List.zipIdx_eq_cons_iff.mp last.symm
    cases here
    rw [Nat.zero_add] at wrong
    refine ⟨before, element, after, rfl, fun other member => ?_, wrong⟩
    obtain ⟨place, there⟩ := List.mem_iff_getElem?.mp member
    exact earlier (other, place) (List.mk_mem_zipIdx_iff_getElem?.mpr there)
  · rintro ⟨before, element, after, rfl, earlier, wrong⟩
    refine ⟨before.zipIdx, (element, before.length), after.zipIdx (before.length + 1), ?_, ?_, wrong⟩
    · rw [List.zipIdx_append, List.zipIdx_cons, Nat.zero_add]
    · exact fun other member => earlier _ (List.fst_mem_of_mem_zipIdx member)

theorem Gives.unique {element first second : Value} (one : Gives selector transforms element first)
    (other : Gives selector transforms element second) : first = second := by
  obtain ⟨members, value, rfl, found, done⟩ := one
  obtain ⟨_, _, same, foundToo, doneToo⟩ := other
  cases same
  rw [found] at foundToo
  cases foundToo
  rw [done] at doneToo
  exact Except.ok.inj doneToo

theorem values_at_of_extract {elements values : List Value}
    (extracted : extract ⟨selector, .field⟩ transforms (.array elements) = .ok values) :
    values.length = elements.length ∧
      ∀ (index : Nat) (element : Value), elements[index]? = some element →
        ∃ value, values[index]? = some value ∧ Gives selector transforms element value := by
  have given := (extract_eq_ok_iff elements values).mp extracted
  refine ⟨given.length_eq.symm, fun index element found => ?_⟩
  obtain ⟨inside, rfl⟩ := List.getElem?_eq_some_iff.mp found
  have insideToo : index < values.length := given.length_eq ▸ inside
  exact ⟨values[index], List.getElem?_eq_getElem insideToo,
    (List.forall₂_iff_get.mp given).2 index inside insideToo⟩

/-- What a field address finds in an array, said of one element at a time. -/
structure Pointwise (selector : String) (transforms : List Transform) (elements : List Value) :
    Prop where
  succeeds_iff :
    (∃ values, extract ⟨selector, .field⟩ transforms (.array elements) = .ok values) ↔
      AllGive selector transforms elements
  values_at : ∀ values, extract ⟨selector, .field⟩ transforms (.array elements) = .ok values →
    values.length = elements.length ∧
      ∀ (index : Nat) (element : Value), elements[index]? = some element →
        ∃ value, values[index]? = some value ∧ Gives selector transforms element value
  value_own : ∀ (others values otherValues : List Value) (index : Nat),
    extract ⟨selector, .field⟩ transforms (.array elements) = .ok values →
    extract ⟨selector, .field⟩ transforms (.array others) = .ok otherValues →
    elements[index]? = others[index]? → values[index]? = otherValues[index]?
  /-- The first element at fault alone has a say in the fault: any others may stand in front of it,
  as long as they are as many and not at fault, and any behind it. -/
  fails_iff : ∀ fault, extract ⟨selector, .field⟩ transforms (.array elements) = .error fault ↔
    ∃ before element after, elements = before ++ element :: after ∧
      AllGive selector transforms before ∧
      ElementFault selector transforms element before.length fault ∧
      ∀ others later : List Value, others.length = before.length →
        AllGive selector transforms others →
        extract ⟨selector, .field⟩ transforms (.array (others ++ element :: later)) = .error fault

theorem extract_pointwise (selector : String) (transforms : List Transform)
    (elements : List Value) : Pointwise selector transforms elements where
  succeeds_iff := by
    simp only [extract_eq_ok_iff]
    exact Fallible.exists_forall₂_iff _ _
  values_at _ extracted := values_at_of_extract extracted
  value_own others values otherValues index extracted othersExtracted same := by
    obtain ⟨length_eq, given⟩ := values_at_of_extract extracted
    obtain ⟨otherLength_eq, otherGiven⟩ := values_at_of_extract othersExtracted
    cases found : elements[index]? with
    | none =>
      have foundToo := same.symm.trans found
      rw [List.getElem?_eq_none_iff] at found foundToo
      rw [List.getElem?_eq_none (length_eq ▸ found),
        List.getElem?_eq_none (otherLength_eq ▸ foundToo)]
    | some element =>
      obtain ⟨value, here, gives⟩ := given index element found
      obtain ⟨other, there, givesToo⟩ := otherGiven index element (same.symm.trans found)
      rw [here, there, gives.unique givesToo]
  fails_iff fault := by
    rw [extract_eq_error_iff]
    constructor
    · rintro ⟨before, element, after, rfl, earlier, wrong⟩
      refine ⟨before, element, after, rfl, earlier, wrong, fun others later same given => ?_⟩
      exact (extract_eq_error_iff _ _).mpr ⟨others, element, later, rfl, given, same ▸ wrong⟩
    · rintro ⟨before, element, after, split, earlier, wrong, -⟩
      exact ⟨before, element, after, split, earlier, wrong⟩

end Address

namespace Address

theorem resolve_single_eq_ok {field : String} {element : Value} {values : List Value}
    (found : resolve ⟨field, .field⟩ (.array [element]) = .ok values) :
    ∃ members value, element = .object members ∧ members.lookup field = some value := by
  cases read : fieldOf field element 0 with
  | ok value =>
    obtain ⟨members, object, here⟩ := (fieldOf_eq_ok_iff _ _ _ _).mp read
    exact ⟨members, value, object, here⟩
  | error cause => simp [resolve, read] at found

theorem resolve_single_eq_error {address : Address} {members : List (String × Value)}
    {cause : ExtractionError}
    (failed : address.resolve (.array [.object members]) = .error cause) :
    (∃ reason, cause = .query reason) ∨
      address.kind = .field ∧ members.lookup address.selector = none ∧
        cause = .missingField address.selector 0 := by
  cases kind : address.kind with
  | query =>
    cases parsed : Path.parse address.selector <;> simp [resolve, kind, parsed] at failed
    exact .inl ⟨_, failed.symm⟩
  | field =>
    cases found : members.lookup address.selector <;>
      simp [resolve, kind, fieldOf, found] at failed
    exact .inr ⟨rfl, rfl, failed.symm⟩
  | unrecognized suffix => simp [resolve, kind] at failed

end Address

namespace Transform

theorem resolve_of_apply_eq_error {transform : Transform} {element value : Value}
    {cause : ExtractionError}
    (failed : transform.apply element value = .error (.extraction cause)) :
    ∃ address, transform = .removePrefix address ∧
      address.resolve (.array [element]) = .error cause := by
  cases transform with
  | removePrefix address =>
    simp only [apply, prefixFor, Fallible.bind_eq_error_iff, Fallible.mapError_eq_error_iff,
      Fallible.map_eq_error_iff] at failed
    rcases failed with ⟨_, missing, same⟩ | ⟨_, -, ⟨_, -, other⟩ | ⟨_, -, other⟩⟩
    · cases same
      exact ⟨address, rfl, missing⟩
    · cases other
    · cases other
  | timeFormat format =>
    cases format with
    | storeHours =>
      simp only [apply, Fallible.bind_eq_error_iff, Fallible.mapError_eq_error_iff] at failed
      rcases failed with ⟨_, -, other⟩ | ⟨_, -, ⟨_, -, other⟩ | ⟨_, -, other⟩⟩ <;> cases other
    | other name => cases failed
  | unrecognized name => cases failed

variable {transforms : List Transform} {members : List (String × Value)}

theorem cause_of_applyAll_eq_error {value : Value} {cause : ExtractionError}
    (failed : applyAll transforms (.object members) value = .error (.extraction cause)) :
    (∃ reason, cause = .query reason) ∨
      ∃ field, .removePrefix ⟨field, .field⟩ ∈ transforms ∧ members.lookup field = none ∧
        cause = .missingField field 0 := by
  obtain ⟨before, transform, after, current, rfl, -, here⟩ :=
    (Fallible.foldlM_eq_error_iff _ _ _ _).mp failed
  have listed : transform ∈ before ++ transform :: after := List.mem_append_cons_self
  obtain ⟨address, rfl, missing⟩ := resolve_of_apply_eq_error here
  rcases Address.resolve_single_eq_error missing with wrong | ⟨kind, absent, rfl⟩
  · exact .inl wrong
  · exact .inr ⟨address.selector, by rwa [← kind], absent, rfl⟩

theorem lookup_of_applyAll_eq_ok {element value result : Value} {field : String}
    (done : applyAll transforms element value = .ok result)
    (listed : .removePrefix ⟨field, .field⟩ ∈ transforms) :
    ∃ members value, element = .object members ∧ members.lookup field = some value := by
  obtain ⟨before, after, applied⟩ := Fallible.step_of_foldlM_eq_ok done _ listed
  simp only [apply, prefixFor, Fallible.bind_eq_ok_iff, Fallible.mapError_eq_ok_iff,
    Fallible.map_eq_ok_iff] at applied
  obtain ⟨_, ⟨values, found, -⟩, -⟩ := applied
  exact Address.resolve_single_eq_ok found

end Transform

namespace Address

def LacksAt (elements : List Value) (field : String) (index : Nat) : Prop :=
  ∃ members, elements[index]? = some (.object members) ∧ members.lookup field = none

variable {selector : String} {transforms : List Transform} {elements : List Value}

theorem notObject_at_of_extract {field : String} {index : Nat} {found : Value.Kind}
    (failed : extract ⟨selector, .field⟩ transforms (.array elements) =
      .error (.extraction (.notObject field index found))) :
    ∃ element : Value, elements[index]? = some element ∧ element.kind = found ∧
      found ≠ .object := by
  obtain ⟨before, element, after, rfl, -, wrong⟩ := (extract_eq_error_iff _ _).mp failed
  cases wrong with
  | notObject other => exact ⟨element, by simp, rfl, other⟩
  | transform object found failed =>
    subst object
    rcases Transform.cause_of_applyAll_eq_error failed with ⟨_, other⟩ | ⟨_, -, -, other⟩ <;>
      cases other

/-- The element at fault where extraction says that a field is missing: it lacks that field, which
is the one to read, or one to take out that is looked for in this element alone. -/
theorem missingField_of_extract {field : String} {index : Nat}
    (failed : extract ⟨selector, .field⟩ transforms (.array elements) =
      .error (.extraction (.missingField field index))) :
    ∃ before members after, elements = before ++ .object members :: after ∧
      AllGive selector transforms before ∧ members.lookup field = none ∧
      (index = before.length ∧ field = selector ∨
        index = 0 ∧ .removePrefix ⟨field, .field⟩ ∈ transforms ∧
          ∃ value, members.lookup selector = some value) := by
  obtain ⟨before, element, after, rfl, earlier, wrong⟩ := (extract_eq_error_iff _ _).mp failed
  cases wrong with
  | missingField object missing =>
    subst object
    exact ⟨before, _, after, rfl, earlier, missing, .inl ⟨rfl, rfl⟩⟩
  | transform object found failed =>
    subst object
    rcases Transform.cause_of_applyAll_eq_error failed with ⟨_, other⟩ | ⟨_, listed, missing, same⟩
    · cases other
    · cases same
      exact ⟨before, _, after, rfl, earlier, missing, .inr ⟨rfl, listed, _, found⟩⟩

theorem not_lacksAt_zero {first : Value} {rest : List Value} {field : String}
    (given : ∃ value, Gives selector transforms first value)
    (listed : .removePrefix ⟨field, .field⟩ ∈ transforms) :
    ¬ LacksAt (first :: rest) field 0 := by
  rintro ⟨members, here, missing⟩
  obtain ⟨_, _, _, -, -, done⟩ := given
  obtain ⟨_, _, object, found⟩ := Transform.lookup_of_applyAll_eq_ok done listed
  cases here
  cases object
  rw [found] at missing
  cases missing

/-- A fault of extraction that names an element that is no object names the right one. One that
names a missing field does so if and only if it names the place of the element at fault; otherwise
the field is one to take out, and element 0 is named, which has it. -/
theorem extract_fault_located (selector : String) (transforms : List Transform)
    (elements : List Value) :
    (∀ field index found, extract ⟨selector, .field⟩ transforms (.array elements) =
        .error (.extraction (.notObject field index found)) →
      ∃ element : Value, elements[index]? = some element ∧ element.kind = found ∧
        found ≠ .object) ∧
    ∀ field index, extract ⟨selector, .field⟩ transforms (.array elements) =
        .error (.extraction (.missingField field index)) →
      ∃ before members after, elements = before ++ .object members :: after ∧
        AllGive selector transforms before ∧ members.lookup field = none ∧
        (index = before.length ∧ field = selector ∨
          index = 0 ∧ .removePrefix ⟨field, .field⟩ ∈ transforms ∧
            ∃ value, members.lookup selector = some value) ∧
        (LacksAt elements field index ↔ index = before.length) := by
  refine ⟨fun _ _ _ => notObject_at_of_extract, fun field index failed => ?_⟩
  obtain ⟨before, members, after, rfl, earlier, missing, place⟩ := missingField_of_extract failed
  refine ⟨before, members, after, rfl, earlier, missing, place, fun lacks => ?_, ?_⟩
  · rcases place with ⟨here, -⟩ | ⟨rfl, listed, -⟩
    · exact here
    · cases before with
      | nil => rfl
      | cons first before =>
        exact absurd lacks (not_lacksAt_zero (earlier first List.mem_cons_self) listed)
  · rintro rfl
    exact ⟨members, by simp, missing⟩

def laterWithout : List Value :=
  [.object [("code", .string "ST-1"), ("shop", .string "ST-")], .object [("code", .string "ST-2")]]

theorem laterWithout_fails :
    extract ⟨"code", .field⟩ [.removePrefix ⟨"shop", .field⟩] (.array laterWithout) =
      .error (.extraction (.missingField "shop" 0)) := rfl

theorem laterWithout_located :
    ∃ before members after, laterWithout = before ++ .object members :: after ∧
      members.lookup "shop" = none ∧ (LacksAt laterWithout "shop" 0 ↔ 0 = before.length) := by
  obtain ⟨before, members, after, split, -, missing, -, located⟩ :=
    (extract_fault_located "code" [.removePrefix ⟨"shop", .field⟩] laterWithout).2 _ _
      laterWithout_fails
  exact ⟨before, members, after, split, missing, located⟩

theorem missingField_misplaced :
    ¬ ∀ (selector : String) (transforms : List Transform) (elements : List Value) (field : String)
      (index : Nat), extract ⟨selector, .field⟩ transforms (.array elements) =
          .error (.extraction (.missingField field index)) →
        LacksAt elements field index := by
  intro located
  obtain ⟨members, here, missing⟩ := located _ _ _ _ _ laterWithout_fails
  cases here
  cases missing

end Address

end Reconcile
