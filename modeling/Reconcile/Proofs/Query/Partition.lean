import Mathlib.Data.List.Basic
import Mathlib.Data.List.Lex
import Mathlib.Data.String.Basic
import Reconcile.Query.Eval

namespace Reconcile.Query

/-- Every item of the first list goes to exactly one of the two others, in its turn. -/
inductive Dealt {α : Type} : List α → List α → List α → Prop
  | nil : Dealt [] [] []
  | left {a : α} {whole first second : List α} (rest : Dealt whole first second) :
      Dealt (a :: whole) (a :: first) second
  | right {a : α} {whole first second : List α} (rest : Dealt whole first second) :
      Dealt (a :: whole) first (a :: second)

/-- A selection that falls into two others without a node in common. -/
structure Splits (whole first second : List Node) : Prop where
  dealt : Dealt whole first second
  disjoint : first.Disjoint second

theorem splits_filter (nodes : List Node) {whole first second : Node → Bool}
    (either : ∀ node, whole node = (first node || second node))
    (notBoth : ∀ node, (first node && second node) = false) :
    Splits (nodes.filter whole) (nodes.filter first) (nodes.filter second) where
  dealt := by
    induction nodes with
    | nil => exact .nil
    | cons node nodes ih =>
      have here := either node
      have once := notBoth node
      cases inFirst : first node <;> cases inSecond : second node <;>
        simp only [inFirst, inSecond, Bool.or_false, Bool.or_true, Bool.and_false, Bool.and_true,
          Bool.true_eq_false] at here once
      · simpa only [List.filter_cons, here, inFirst, inSecond, Bool.false_eq_true,
          if_false] using ih
      · simpa only [List.filter_cons, here, inFirst, inSecond, if_true, Bool.false_eq_true,
          if_false] using ih.right
      · simpa only [List.filter_cons, here, inFirst, inSecond, if_true, Bool.false_eq_true,
          if_false] using ih.left
  disjoint := by
    intro node inFirst inSecond
    have once := notBoth node
    rw [(List.mem_filter.mp inFirst).2, (List.mem_filter.mp inSecond).2] at once
    cases once

def Literal.orderedKind? : Literal → Option Value.Kind
  | .number _ => some .number
  | .string _ => some .string
  | .null | .bool _ => none

theorem isSome_order? (value : Value) (literal : Literal) :
    (order? value literal).isSome = decide (literal.orderedKind? = some value.kind) := by
  cases value <;> cases literal <;> rfl

theorem same_of_ordered {literal : Literal} {kind : Value.Kind}
    (ordered : literal.orderedKind? = some kind) (value : Value) : same value literal = false := by
  cases literal with
  | null | bool => cases ordered
  | number | string => cases value <;> rfl

namespace Comparison

variable (value : Value) (literal : Literal)

theorem eq_or_ne : (eq.holds value literal || ne.holds value literal) = true := by
  cases order : order? value literal <;> simp [holds, order, bne]

theorem not_eq_and_ne : (eq.holds value literal && ne.holds value literal) = false := by
  cases order : order? value literal <;> simp [holds, order, bne]

theorem lt_or_ge :
    (lt.holds value literal || ge.holds value literal) = (order? value literal).isSome := by
  rcases order : order? value literal with _ | _ | _ | _ <;> simp [holds, order]

theorem not_lt_and_ge : (lt.holds value literal && ge.holds value literal) = false := by
  rcases order : order? value literal with _ | _ | _ | _ <;> simp [holds, order]

theorem le_or_gt :
    (le.holds value literal || gt.holds value literal) = (order? value literal).isSome := by
  rcases order : order? value literal with _ | _ | _ | _ <;> simp [holds, order]

theorem not_le_and_gt : (le.holds value literal && gt.holds value literal) = false := by
  rcases order : order? value literal with _ | _ | _ | _ <;> simp [holds, order]

variable {literal} in
theorem lt_or_eq {kind : Value.Kind} (ordered : literal.orderedKind? = some kind) :
    (lt.holds value literal || eq.holds value literal) = le.holds value literal := by
  have noOther := same_of_ordered ordered value
  rcases order : order? value literal with _ | _ | _ | _ <;> simp [holds, order, noOther]

theorem not_lt_and_eq : (lt.holds value literal && eq.holds value literal) = false := by
  rcases order : order? value literal with _ | _ | _ | _ <;> simp [holds, order]

end Comparison

/-- From a value to the one that a chain of member names leads to: at every object to the first
member with the name. -/
inductive LeadsTo : List String → Value → Value → Prop
  | here (value : Value) : LeadsTo [] value value
  | member {name : String} {names : List String} {before after : List (String × Value)}
      {value found : Value} (first : ∀ other ∈ before, other.1 ≠ name)
      (further : LeadsTo names value found) :
      LeadsTo (name :: names) (.object (before ++ (name, value) :: after)) found

theorem member?_eq_some_iff (name : String) (value found : Value) :
    value.member? name = some found ↔ ∃ before after, (∀ other ∈ before, other.1 ≠ name) ∧
      value = .object (before ++ (name, found) :: after) := by
  cases value with
  | object members =>
    have names (before : List (String × Value)) :
        (∀ other ∈ before, (name != other.1) = true) ↔ ∀ other ∈ before, other.1 ≠ name := by
      simp only [bne_iff_ne, ne_comm]
    rw [Value.member?, List.lookup_eq_some_iff]
    simp only [names, Value.object.injEq]
    exact exists₂_congr fun _ _ => and_comm
  | _ => simp [Value.member?]

theorem follow?_eq_some_iff (field : List String) (value found : Value) :
    follow? field value = some found ↔ LeadsTo field value found := by
  rw [follow?]
  induction field generalizing value with
  | nil =>
    constructor
    · rintro ⟨⟩
      exact .here _
    · rintro ⟨⟩
      rfl
  | cons name names ih =>
    rw [List.foldlM_cons, Option.bind_eq_bind, Option.bind_eq_some_iff]
    constructor
    · rintro ⟨inner, here, further⟩
      obtain ⟨before, after, first, rfl⟩ := (member?_eq_some_iff name value inner).mp here
      exact .member first ((ih inner).mp further)
    · intro leads
      cases leads with
      | @member _ _ before after inner _ first further =>
        exact ⟨inner, (member?_eq_some_iff _ _ _).mpr ⟨before, after, first, rfl⟩,
          (ih inner).mpr further⟩

def childrenWith (node : Node) (field : List String) (test : Value → Bool) : List Node :=
  (children node).filter fun child => (follow? field child.value).any test

theorem splits_childrenWith (node : Node) (field : List String) {whole first second : Value → Bool}
    (either : ∀ value, whole value = (first value || second value))
    (notBoth : ∀ value, (first value && second value) = false) :
    Splits (childrenWith node field whole) (childrenWith node field first)
      (childrenWith node field second) := by
  apply splits_filter
  · intro child
    cases follow? field child.value with
    | none => rfl
    | some value => exact either value
  · intro child
    cases follow? field child.value with
    | none => rfl
    | some value => exact notBoth value

def present (node : Node) (field : List String) : List Node :=
  Selector.select node (.filter ⟨field, none⟩)

def selected (node : Node) (field : List String) (literal : Literal) (comparison : Comparison) :
    List Node :=
  Selector.select node (.filter ⟨field, some (comparison, literal)⟩)

theorem present_eq (node : Node) (field : List String) :
    present node field = childrenWith node field fun _ => true := by
  rw [present, Selector.select, childrenWith]
  congr 1
  funext child
  rw [Filter.accepts]
  cases follow? field child.value <;> rfl

theorem selected_eq (node : Node) (field : List String) (literal : Literal)
    (comparison : Comparison) :
    selected node field literal comparison =
      childrenWith node field (comparison.holds · literal) := by
  rw [selected, Selector.select, childrenWith]
  congr 1
  funext child
  rw [Filter.accepts]
  cases follow? field child.value <;> rfl

def codePoints (text : String) : List Nat := text.toList.map Char.toNat

theorem codePoints_strictMono : StrictMono codePoints := fun _ _ less =>
  List.map_lt (fun _ _ => id) (String.lt_iff.mp less)

/-- What the selections by one member path and one literal have to do with each other. -/
structure FilterLaws (node : Node) (field : List String) (literal : Literal) : Prop where
  follows : ∀ value found, follow? field value = some found ↔ LeadsTo field value found
  present_iff : ∀ child, child ∈ present node field ↔
    child ∈ children node ∧ ∃ found, LeadsTo field child.value found
  inOrder : (present node field).Sublist (children node) ∧
    ∀ comparison, (selected node field literal comparison).Sublist (children node)
  equality : Splits (present node field) (selected node field literal .eq)
    (selected node field literal .ne)
  /-- Against a number or a string the children whose member is of that kind are ordered. -/
  ordered : ∀ kind, literal.orderedKind? = some kind →
    Splits (childrenWith node field (·.kind = kind)) (selected node field literal .lt)
        (selected node field literal .ge) ∧
      Splits (childrenWith node field (·.kind = kind)) (selected node field literal .le)
        (selected node field literal .gt) ∧
      Splits (selected node field literal .le) (selected node field literal .lt)
        (selected node field literal .eq)
  unordered : literal.orderedKind? = none → ∀ comparison ∈ [Comparison.lt, .le, .gt, .ge],
    selected node field literal comparison = []
  strings : ∀ text, literal = .string text → ∀ child ∈ children node, ∀ found,
    follow? field child.value = some (.string found) →
      (child ∈ selected node field literal .lt ↔ codePoints found < codePoints text) ∧
      (child ∈ selected node field literal .eq ↔ codePoints found = codePoints text)
  absent : ∀ child, follow? field child.value = none →
    ∀ comparison, child ∉ selected node field literal comparison

theorem mem_selected_iff (node : Node) (field : List String) (literal : Literal)
    (comparison : Comparison) (child : Node) :
    child ∈ selected node field literal comparison ↔
      child ∈ children node ∧ ∃ found, follow? field child.value = some found ∧
        comparison.holds found literal = true := by
  rw [selected_eq, childrenWith, List.mem_filter, Option.any_eq_true]

theorem splits_ordered (node : Node) (field : List String) {literal : Literal} {kind : Value.Kind}
    (ordered : literal.orderedKind? = some kind) :
    Splits (childrenWith node field (·.kind = kind)) (selected node field literal .lt)
        (selected node field literal .ge) ∧
      Splits (childrenWith node field (·.kind = kind)) (selected node field literal .le)
        (selected node field literal .gt) ∧
      Splits (selected node field literal .le) (selected node field literal .lt)
        (selected node field literal .eq) := by
  have ofKind (value : Value) :
      decide (value.kind = kind) = (order? value literal).isSome := by
    rw [isSome_order?, ordered]
    simp [eq_comm]
  simp only [selected_eq]
  refine ⟨?_, ?_, ?_⟩
  · exact splits_childrenWith node field
      (fun value => (ofKind value).trans (Comparison.lt_or_ge value literal).symm)
      (fun value => Comparison.not_lt_and_ge value literal)
  · exact splits_childrenWith node field
      (fun value => (ofKind value).trans (Comparison.le_or_gt value literal).symm)
      (fun value => Comparison.not_le_and_gt value literal)
  · exact splits_childrenWith node field
      (fun value => (Comparison.lt_or_eq value ordered).symm)
      (fun value => Comparison.not_lt_and_eq value literal)

/-- The six operators divide the children of every node, whatever the members are, and leave out
those without the member. -/
theorem filters_partition_children (node : Node) (field : List String) (literal : Literal) :
    FilterLaws node field literal where
  follows := follow?_eq_some_iff field
  present_iff child := by
    rw [present_eq, childrenWith, List.mem_filter, Option.any_eq_true]
    simp only [and_true, follow?_eq_some_iff]
  inOrder := by
    simp only [present_eq, selected_eq]
    exact ⟨List.filter_sublist, fun _ => List.filter_sublist⟩
  equality := by
    rw [present_eq, selected_eq, selected_eq]
    exact splits_childrenWith node field
      (fun value => (Comparison.eq_or_ne value literal).symm)
      (fun value => Comparison.not_eq_and_ne value literal)
  ordered _ ordered := splits_ordered node field ordered
  unordered none := by
    have noOrder (value : Value) : order? value literal = Option.none := by
      simpa [none] using isSome_order? value literal
    intro comparison listed
    rw [List.eq_nil_iff_forall_not_mem]
    intro child member
    obtain ⟨-, value, -, holds⟩ := (mem_selected_iff _ _ _ _ _).mp member
    simp only [List.mem_cons, List.not_mem_nil, or_false] at listed
    rcases listed with rfl | rfl | rfl | rfl <;> simp [Comparison.holds, noOrder] at holds
  strings := by
    rintro text rfl child inside found followed
    simp only [mem_selected_iff, inside, followed, true_and, Option.some.injEq, exists_eq_left',
      Comparison.holds, order?, Option.any_some, Option.elim_some, beq_iff_eq, compare_lt_iff_lt,
      compare_eq_iff_eq, codePoints_strictMono.lt_iff_lt, codePoints_strictMono.injective.eq_iff]
  absent := by
    intro child missing comparison member
    obtain ⟨-, found, followed, -⟩ := (mem_selected_iff _ _ _ _ _).mp member
    rw [missing] at followed
    cases followed

example :
    let node : Node := ⟨[], .array [.object [("f", .string "a")], .object [("f", .string "b")],
      .object [("f", .null)], .object [("g", .string "a")], .string "a"]⟩
    let chosen (comparison : Comparison) :=
      (selected node ["f"] (.string "b") comparison).map (·.location)
    chosen .ne = [[.index 0], [.index 2]] ∧ chosen .lt = [[.index 0]] ∧
      chosen .ge = [[.index 1]] := by decide

end Reconcile.Query
