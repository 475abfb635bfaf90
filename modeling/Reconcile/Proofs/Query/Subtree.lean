import Reconcile.Proofs.Document.Members
import Reconcile.Query.Eval

namespace Reconcile

namespace Value

theorem at?_nil (value : Value) : value.at? [] = some value := rfl

theorem at?_cons (value : Value) (step : Step) (steps : List Step) :
    value.at? (step :: steps) = (value.step? step).bind (·.at? steps) := rfl

theorem at?_append (value : Value) (before after : List Step) :
    value.at? (before ++ after) = (value.at? before).bind (·.at? after) := by
  simp only [at?, List.foldlM_append, Option.bind_eq_bind]

end Value

namespace Query

theorem mem_itemNodes_iff (location : List Step) (items : List Value) (node : Node) :
    node ∈ itemNodes location items ↔
      ∃ position : Nat, node.location = location ++ [.index position] ∧
        items[position]? = some node.value := by
  obtain ⟨steps, value⟩ := node
  simp only [itemNodes, List.mem_mapIdx, Node.mk.injEq]
  constructor
  · rintro ⟨position, bound, rfl, rfl⟩
    exact ⟨position, rfl, List.getElem?_eq_getElem bound⟩
  · rintro ⟨position, rfl, found⟩
    obtain ⟨bound, same⟩ := List.getElem?_eq_some_iff.mp found
    exact ⟨position, bound, rfl, same⟩

theorem mem_memberNodes_iff (location : List Step) (members : List (String × Value))
    (node : Node) :
    node ∈ memberNodes location members ↔
      ∃ name, node.location = location ++ [.name name] ∧ (name, node.value) ∈ members := by
  obtain ⟨steps, value⟩ := node
  simp only [memberNodes, List.mem_map, Node.mk.injEq, Prod.exists]
  constructor
  · rintro ⟨name, value, member, rfl, rfl⟩
    exact ⟨name, rfl, member⟩
  · rintro ⟨name, rfl, member⟩
    exact ⟨name, value, member, rfl, rfl⟩

theorem mem_children_iff {node : Node} (wellFormed : node.value.WellFormed) (child : Node) :
    child ∈ children node ↔
      ∃ step, child.location = node.location ++ [step] ∧
        node.value.step? step = some child.value := by
  obtain ⟨location, value⟩ := node
  cases value with
  | array items =>
    simp only [children, mem_itemNodes_iff]
    constructor
    · rintro ⟨position, located, found⟩
      exact ⟨.index position, located, found⟩
    · rintro ⟨step, located, found⟩
      cases step with
      | name name => cases found
      | index position => exact ⟨position, located, found⟩
  | object members =>
    have lookup := Value.lookup_eq_some_iff_mem wellFormed.1
    simp only [children, mem_memberNodes_iff]
    constructor
    · rintro ⟨name, located, member⟩
      exact ⟨.name name, located, (lookup name child.value).mpr member⟩
    · rintro ⟨step, located, found⟩
      cases step with
      | name name => exact ⟨name, located, (lookup name child.value).mp found⟩
      | index position => cases found
  | _ =>
    constructor
    · intro member
      cases member
    · rintro ⟨step, -, found⟩
      cases step <;> cases found

theorem location_of_mem_children {node child : Node} (member : child ∈ children node) :
    ∃ step, child.location = node.location ++ [step] := by
  obtain ⟨location, value⟩ := node
  cases value with
  | array items =>
    obtain ⟨position, located, -⟩ := (mem_itemNodes_iff location items child).mp member
    exact ⟨.index position, located⟩
  | object members =>
    obtain ⟨name, located, -⟩ := (mem_memberNodes_iff location members child).mp member
    exact ⟨.name name, located⟩
  | _ => cases member

theorem wellFormed_of_mem_children {node child : Node} (wellFormed : node.value.WellFormed)
    (member : child ∈ children node) : child.value.WellFormed := by
  obtain ⟨location, value⟩ := node
  cases value with
  | array items =>
    obtain ⟨position, -, found⟩ := (mem_itemNodes_iff location items child).mp member
    exact (Value.wellFormed_array_iff items).mp wellFormed _ (List.mem_of_getElem? found)
  | object members =>
    obtain ⟨name, -, found⟩ := (mem_memberNodes_iff location members child).mp member
    exact ((Value.wellFormed_object_iff members).mp wellFormed).2 _ found
  | _ => cases member

theorem sizeOf_lt_of_mem_children {node child : Node} (member : child ∈ children node) :
    sizeOf child.value < sizeOf node.value := by
  obtain ⟨location, value⟩ := node
  cases value with
  | array items =>
    obtain ⟨position, -, found⟩ := (mem_itemNodes_iff location items child).mp member
    have smaller := List.sizeOf_lt_of_mem (List.mem_of_getElem? found)
    simp only [Value.array.sizeOf_spec]
    omega
  | object members =>
    obtain ⟨name, -, found⟩ := (mem_memberNodes_iff location members child).mp member
    have smaller := List.sizeOf_lt_of_mem found
    simp only [Value.object.sizeOf_spec, Prod.mk.sizeOf_spec] at smaller ⊢
    omega
  | _ => cases member

theorem nodup_children {node : Node} (wellFormed : node.value.WellFormed) :
    ((children node).map (·.location)).Nodup := by
  obtain ⟨location, value⟩ := node
  cases value with
  | array items =>
    have positions : (children ⟨location, .array items⟩).map (·.location) =
        (List.range items.length).map fun position => location ++ [.index position] := by
      apply List.ext_getElem <;> simp [children, itemNodes]
    rw [positions]
    exact List.nodup_range.map fun first second same => by simpa using same
  | object members =>
    have names : (children ⟨location, .object members⟩).map (·.location) =
        (members.map (·.1)).map fun name => location ++ [.name name] := by
      simp [children, memberNodes]
    rw [names]
    exact wellFormed.1.map fun first second same => by simpa using same
  | _ => exact List.nodup_nil

/-- What holds of a node if it holds of its children holds of every node. -/
theorem induction_on_children {holds : Node → Prop}
    (step : ∀ node, (∀ child ∈ children node, holds child) → holds node) (node : Node) :
    holds node :=
  step node fun child _ => induction_on_children step child
termination_by sizeOf node.value
decreasing_by exact sizeOf_lt_of_mem_children ‹_›

end Query

def Node.subtree (node : Node) : List Node := Query.subtree node.location node.value

namespace Query

theorem itemSubtrees_eq (location : List Step) (first : Nat) (items : List Value) :
    itemSubtrees location first items =
      (items.mapIdx fun position value =>
        (⟨location ++ [.index (first + position)], value⟩ : Node)).flatMap Node.subtree := by
  induction items generalizing first with
  | nil => rfl
  | cons item items ih =>
    rw [itemSubtrees, ih, List.mapIdx_cons, List.flatMap_cons]
    simp [Node.subtree, Nat.add_assoc, Nat.add_comm 1]

theorem memberSubtrees_eq (location : List Step) (members : List (String × Value)) :
    memberSubtrees location members = (memberNodes location members).flatMap Node.subtree := by
  induction members with
  | nil => rfl
  | cons member members ih =>
    obtain ⟨name, value⟩ := member
    rw [memberSubtrees, ih]
    rfl

theorem subtree_eq (node : Node) :
    node.subtree = node :: (children node).flatMap Node.subtree := by
  obtain ⟨location, value⟩ := node
  cases value with
  | array items =>
    have below := itemSubtrees_eq location 0 items
    simp only [Nat.zero_add] at below
    simp [Node.subtree, subtree, below, children, itemNodes]
  | object members => simp [Node.subtree, subtree, memberSubtrees_eq, children]
  | _ => rfl

theorem mem_subtree_self (node : Node) : node ∈ node.subtree := by
  rw [subtree_eq]
  exact List.mem_cons_self

theorem mem_subtree_of_child {node child found : Node} (member : child ∈ children node)
    (below : found ∈ child.subtree) : found ∈ node.subtree := by
  rw [subtree_eq]
  exact List.mem_cons_of_mem _ (List.mem_flatMap.mpr ⟨child, member, below⟩)

theorem mem_subtree_trans {node middle found : Node} (upper : middle ∈ node.subtree)
    (lower : found ∈ middle.subtree) : found ∈ node.subtree := by
  induction node using induction_on_children with
  | step node ih =>
    rw [subtree_eq] at upper
    rcases List.mem_cons.mp upper with rfl | upper
    · exact lower
    · obtain ⟨child, member, upper⟩ := List.mem_flatMap.mp upper
      exact mem_subtree_of_child member (ih child member upper)

theorem mem_subtree_of_mem_children {node child : Node} (member : child ∈ children node) :
    child ∈ node.subtree :=
  mem_subtree_of_child member (mem_subtree_self child)

theorem location_prefix_of_mem_subtree {node found : Node} (below : found ∈ node.subtree) :
    node.location <+: found.location := by
  induction node using induction_on_children with
  | step node ih =>
    rw [subtree_eq] at below
    rcases List.mem_cons.mp below with rfl | below
    · exact List.prefix_refl _
    · obtain ⟨child, member, below⟩ := List.mem_flatMap.mp below
      obtain ⟨step, located⟩ := location_of_mem_children member
      have longer := ih child member below
      rw [located] at longer
      exact (List.prefix_append _ _).trans longer

theorem wellFormed_of_mem_subtree {node found : Node} (wellFormed : node.value.WellFormed)
    (below : found ∈ node.subtree) : found.value.WellFormed := by
  induction node using induction_on_children with
  | step node ih =>
    rw [subtree_eq] at below
    rcases List.mem_cons.mp below with rfl | below
    · exact wellFormed
    · obtain ⟨child, member, below⟩ := List.mem_flatMap.mp below
      exact ih child member (wellFormed_of_mem_children wellFormed member) below

theorem mem_subtree_iff {node : Node} (wellFormed : node.value.WellFormed) (found : Node) :
    found ∈ node.subtree ↔
      ∃ steps, found.location = node.location ++ steps ∧
        node.value.at? steps = some found.value := by
  constructor
  · intro below
    induction node using induction_on_children with
    | step node ih =>
      rw [subtree_eq] at below
      rcases List.mem_cons.mp below with rfl | below
      · exact ⟨[], by simp, Value.at?_nil _⟩
      · obtain ⟨child, member, below⟩ := List.mem_flatMap.mp below
        obtain ⟨step, located, stepped⟩ := (mem_children_iff wellFormed child).mp member
        have childFormed := wellFormed_of_mem_children wellFormed member
        obtain ⟨steps, foundLocated, led⟩ := ih child member childFormed below
        refine ⟨step :: steps, ?_, ?_⟩
        · rw [foundLocated, located, List.append_assoc, List.singleton_append]
        · rw [Value.at?_cons, stepped, Option.bind_some, led]
  · rintro ⟨steps, located, led⟩
    induction steps generalizing node with
    | nil =>
      cases node
      cases found
      simp only [List.append_nil, Value.at?_nil, Option.some.injEq] at located led
      subst located led
      exact mem_subtree_self _
    | cons step steps ih =>
      rw [Value.at?_cons] at led
      obtain ⟨value, stepped, led⟩ := Option.bind_eq_some_iff.mp led
      have member : (⟨node.location ++ [step], value⟩ : Node) ∈ children node :=
        (mem_children_iff wellFormed _).mpr ⟨step, rfl, stepped⟩
      have childFormed := wellFormed_of_mem_children wellFormed member
      refine mem_subtree_of_child member (ih childFormed ?_ led)
      rw [located, List.append_assoc, List.singleton_append]

/-- A search from nodes of different locations finds no location twice if each find tells where it
started. -/
theorem nodup_flatMap_locations {nodes : List Node} {find : Node → List Node}
    (origin : List Step → List Step) (distinct : (nodes.map (·.location)).Nodup)
    (each : ∀ node ∈ nodes, ((find node).map (·.location)).Nodup)
    (back : ∀ node ∈ nodes, ∀ found ∈ find node, origin found.location = node.location) :
    ((nodes.flatMap find).map (·.location)).Nodup := by
  rw [List.map_flatMap, List.nodup_flatMap]
  refine ⟨each, ?_⟩
  have apart : nodes.Pairwise fun first second => first.location ≠ second.location :=
    List.pairwise_map.mp distinct
  refine apart.imp_of_mem fun {first second} inFirst inSecond other location atFirst atSecond => ?_
  obtain ⟨found, fromFirst, rfl⟩ := List.mem_map.mp atFirst
  obtain ⟨again, fromSecond, same⟩ := List.mem_map.mp atSecond
  apply other
  rw [← back first inFirst found fromFirst, ← back second inSecond again fromSecond, same]

theorem take_of_mem_subtree {node child found : Node} (member : child ∈ children node)
    (below : found ∈ child.subtree) :
    found.location.take (node.location.length + 1) = child.location := by
  obtain ⟨step, located⟩ := location_of_mem_children member
  obtain ⟨steps, longer⟩ := location_prefix_of_mem_subtree below
  have length : node.location.length + 1 = child.location.length := by simp [located]
  rw [← longer, length, List.take_left]

theorem nodup_subtree {node : Node} (wellFormed : node.value.WellFormed) :
    (node.subtree.map (·.location)).Nodup := by
  induction node using induction_on_children with
  | step node ih =>
    rw [subtree_eq, List.map_cons, List.nodup_cons]
    constructor
    · intro again
      obtain ⟨found, below, same⟩ := List.mem_map.mp again
      obtain ⟨child, member, below⟩ := List.mem_flatMap.mp below
      obtain ⟨step, located⟩ := location_of_mem_children member
      have longer := (location_prefix_of_mem_subtree below).length_le
      rw [located, same, List.length_append, List.length_singleton] at longer
      omega
    · refine nodup_flatMap_locations (List.take (node.location.length + 1))
        (nodup_children wellFormed) ?_ fun child member found below =>
          take_of_mem_subtree member below
      intro child member
      exact ih child member (wellFormed_of_mem_children wellFormed member)

end Query

end Reconcile
