import Mathlib.Data.List.Flatten
import Reconcile.Proofs.Query.Subtree

namespace Reconcile

namespace Query

def Selector.IsSingle : Selector → Prop
  | .union _ => False
  | _ => True

def Segment.isDescendant : Segment → Bool
  | .child _ => false
  | .descendant _ => true

theorem select_sublist_children (selector : Selector) (single : selector.IsSingle) (node : Node) :
    (selector.select node).Sublist (children node) := by
  obtain ⟨location, value⟩ := node
  cases selector with
  | name name =>
    cases value with
    | object members =>
      simp only [Selector.select, Value.member?, children, memberNodes]
      split
      · rename_i value present
        obtain ⟨before, after, rfl, -⟩ := List.lookup_eq_some_iff.mp present
        rw [List.singleton_sublist]
        simp
      · exact List.nil_sublist _
    | _ => exact List.nil_sublist _
  | wildcard =>
    rw [Selector.select]
  | index index =>
    cases value with
    | array items =>
      simp only [Selector.select, children]
      split
      · rename_i position _
        cases found : (itemNodes location items)[position]? with
        | none => exact List.nil_sublist _
        | some node => exact List.singleton_sublist.mpr (List.mem_of_getElem? found)
      · exact List.nil_sublist _
    | _ => exact List.nil_sublist _
  | slice start stop =>
    cases value with
    | array items =>
      simp only [Selector.select, children, sliceOf]
      exact (List.drop_sublist _ _).trans (List.take_sublist _ _)
    | _ => exact List.nil_sublist _
  | union items => exact absurd single id
  | filter filter =>
    rw [Selector.select]
    exact List.filter_sublist

mutual

theorem mem_children_of_select {node found : Node} :
    ∀ {selector : Selector}, found ∈ selector.select node → found ∈ children node
  | .union items, member => by
    rw [Selector.select] at member
    exact mem_children_of_selectAll member
  | .name name, member => (select_sublist_children (.name name) True.intro node).subset member
  | .wildcard, member => (select_sublist_children .wildcard True.intro node).subset member
  | .index index, member => (select_sublist_children (.index index) True.intro node).subset member
  | .slice start stop, member =>
    (select_sublist_children (.slice start stop) True.intro node).subset member
  | .filter filter, member =>
    (select_sublist_children (.filter filter) True.intro node).subset member

theorem mem_children_of_selectAll {node found : Node} :
    ∀ {items : List Selector}, found ∈ selectAll node items → found ∈ children node
  | [], member => by cases member
  | item :: items, member => by
    rw [selectAll] at member
    rcases List.mem_append.mp member with first | others
    · exact mem_children_of_select first
    · exact mem_children_of_selectAll others

end

theorem nodup_select {selector : Selector} (single : selector.IsSingle) {node : Node}
    (wellFormed : node.value.WellFormed) :
    ((selector.select node).map (·.location)).Nodup :=
  (nodup_children wellFormed).sublist ((select_sublist_children selector single node).map _)

theorem descendant_nodes (selector : Selector) (node : Node) :
    (Segment.descendant selector).nodes node = node.subtree.flatMap selector.select := rfl

theorem mem_subtree_of_mem_nodes {segment : Segment} {node found : Node}
    (member : found ∈ segment.nodes node) : found ∈ node.subtree := by
  cases segment with
  | child selector => exact mem_subtree_of_mem_children (mem_children_of_select member)
  | descendant selector =>
    rw [descendant_nodes] at member
    obtain ⟨middle, upper, lower⟩ := List.mem_flatMap.mp member
    exact mem_subtree_trans upper (mem_subtree_of_mem_children (mem_children_of_select lower))

def nodesFrom : List Segment → Node → List Node
  | [], node => [node]
  | segment :: segments, node => (segment.nodes node).flatMap (nodesFrom segments)

theorem foldl_nodes_eq (segments : List Segment) (nodes : List Node) :
    segments.foldl (fun nodes segment => nodes.flatMap segment.nodes) nodes =
      nodes.flatMap (nodesFrom segments) := by
  induction segments generalizing nodes with
  | nil => simp [nodesFrom]
  | cons segment segments ih =>
    rw [List.foldl_cons, ih, List.flatMap_assoc]
    rfl

theorem mem_subtree_of_mem_nodesFrom {segments : List Segment} {node found : Node}
    (member : found ∈ nodesFrom segments node) : found ∈ node.subtree := by
  induction segments generalizing node with
  | nil =>
    rw [List.mem_singleton.mp member]
    exact mem_subtree_self node
  | cons segment segments ih =>
    obtain ⟨middle, upper, lower⟩ := List.mem_flatMap.mp member
    exact mem_subtree_trans (mem_subtree_of_mem_nodes upper) (ih lower)

section

variable {segments : List Segment}

theorem nodesFrom_sublist_subtree
    (single : ∀ segment ∈ segments, segment.selector.IsSingle)
    (level : ∀ segment ∈ segments, segment.isDescendant = false) (node : Node) :
    (nodesFrom segments node).Sublist node.subtree := by
  induction segments generalizing node with
  | nil => exact List.singleton_sublist.mpr (mem_subtree_self node)
  | cons segment segments ih =>
    obtain ⟨firstSingle, othersSingle⟩ := List.forall_mem_cons.mp single
    obtain ⟨firstLevel, othersLevel⟩ := List.forall_mem_cons.mp level
    cases segment with
    | descendant selector => cases firstLevel
    | child selector =>
      have found : (selector.select node).Sublist (children node) :=
        select_sublist_children selector firstSingle node
      have below : ((children node).flatMap (nodesFrom segments)).Sublist
          ((children node).flatMap Node.subtree) :=
        List.Sublist.flatMap_right _ fun child _ => ih othersSingle othersLevel child
      rw [subtree_eq]
      exact ((found.flatMap _).trans below).trans (List.sublist_cons_self node _)

theorem take_of_mem_nodesFrom (level : ∀ segment ∈ segments, segment.isDescendant = false)
    {node found : Node} (member : found ∈ nodesFrom segments node) :
    found.location.take (found.location.length - segments.length) = node.location := by
  have depth : found.location.length = node.location.length + segments.length := by
    induction segments generalizing node with
    | nil =>
      rw [List.mem_singleton.mp member]
      rfl
    | cons segment segments ih =>
      obtain ⟨firstLevel, othersLevel⟩ := List.forall_mem_cons.mp level
      cases segment with
      | descendant selector => cases firstLevel
      | child selector =>
        obtain ⟨child, first, others⟩ := List.mem_flatMap.mp member
        obtain ⟨step, located⟩ := location_of_mem_children (mem_children_of_select first)
        rw [ih othersLevel others, located, List.length_append, List.length_cons]
        simp [Nat.add_comm, Nat.add_left_comm]
  obtain ⟨steps, longer⟩ := location_prefix_of_mem_subtree (mem_subtree_of_mem_nodesFrom member)
  rw [depth, Nat.add_sub_cancel, ← longer, List.take_left]

/-- Without unions and with one descent at most, no location is found twice. -/
theorem nodup_nodesFrom (single : ∀ segment ∈ segments, segment.selector.IsSingle)
    (descents : segments.countP Segment.isDescendant ≤ 1) {node : Node}
    (wellFormed : node.value.WellFormed) :
    ((nodesFrom segments node).map (·.location)).Nodup := by
  induction segments generalizing node with
  | nil => exact List.nodup_singleton _
  | cons segment segments ih =>
    obtain ⟨firstSingle, othersSingle⟩ := List.forall_mem_cons.mp single
    cases segment with
    | child selector =>
      -- Matches from two children lie below different locations of one depth.
      rw [List.countP_cons_of_neg (by simp [Segment.isDescendant])] at descents
      refine nodup_flatMap_locations (List.take (node.location.length + 1))
        (nodup_select firstSingle wellFormed) ?_ ?_
      · intro child member
        have childFormed := wellFormed_of_mem_children wellFormed (mem_children_of_select member)
        exact ih othersSingle descents childFormed
      · intro child member found below
        exact take_of_mem_subtree (mem_children_of_select member)
          (mem_subtree_of_mem_nodesFrom below)
    | descendant selector =>
      -- The nodes of the descent may lie below each other, so depth tells where a match started.
      rw [List.countP_cons_of_pos rfl] at descents
      have level : ∀ segment ∈ segments, segment.isDescendant = false := by
        have none : segments.countP Segment.isDescendant = 0 := by omega
        intro segment member
        simpa using List.countP_eq_zero.mp none segment member
      have found : (((Segment.descendant selector).nodes node).map (·.location)).Nodup := by
        refine nodup_flatMap_locations List.dropLast (nodup_subtree wellFormed) ?_ ?_
        · intro middle below
          exact nodup_select firstSingle (wellFormed_of_mem_subtree wellFormed below)
        · intro middle below child member
          obtain ⟨step, located⟩ := location_of_mem_children (mem_children_of_select member)
          rw [located, List.dropLast_concat]
      refine nodup_flatMap_locations
        (fun location => location.take (location.length - segments.length)) found ?_
        fun middle _ last member => take_of_mem_nodesFrom level member
      intro middle member
      have middleFormed :=
        wellFormed_of_mem_subtree wellFormed (mem_subtree_of_mem_nodes member)
      exact (nodup_subtree middleFormed).sublist
        ((nodesFrom_sublist_subtree othersSingle level middle).map _)

end

theorem mem_select_name_iff {node : Node} (wellFormed : node.value.WellFormed) (name : String)
    (found : Node) :
    found ∈ (Selector.name name).select node ↔
      ∃ members, node.value = .object members ∧ (name, found.value) ∈ members ∧
        found.location = node.location ++ [.name name] := by
  obtain ⟨location, value⟩ := node
  obtain ⟨steps, foundValue⟩ := found
  cases value with
  | object members =>
    have lookup := Value.lookup_eq_some_iff_mem wellFormed.1 name
    simp only [Selector.select, Value.member?, Value.object.injEq, exists_eq_left', ← lookup]
    cases members.lookup name <;> simp [eq_comm, and_comm]
  | _ => simp [Selector.select, Value.member?]

end Query

open Query

def Path.everyMember (name : String) : Path := ⟨[.descendant (.name name)]⟩

def Path.everyChild : Path := ⟨[.descendant .wildcard]⟩

def Value.root (document : Value) : Node := ⟨[], document⟩

namespace Value

theorem mem_root_subtree_iff {document : Value} (wellFormed : document.WellFormed) (node : Node) :
    node ∈ document.root.subtree ↔ document.at? node.location = some node.value := by
  have rootFormed : document.root.value.WellFormed := wellFormed
  rw [mem_subtree_iff rootFormed]
  simp [root]

/-- How the matches of paths lie in a document, where `root.subtree` lists all its nodes. -/
structure MatchesLie (document : Value) : Prop where
  value_at : ∀ path : Path, (path.query document).map some =
    (path.nodes document).map fun node => document.at? node.location
  descent : ∀ selector (node : Node), (Segment.descendant selector).nodes node =
    node.subtree.flatMap (Segment.child selector).nodes
  preorder : ∀ node : Node, node.subtree = node :: (Query.children node).flatMap Node.subtree
  below : ∀ node ∈ document.root.subtree, ∀ found, found ∈ node.subtree ↔
    ∃ steps, found.location = node.location ++ steps ∧ node.value.at? steps = some found.value
  all_below : ∀ node, node ∈ document.root.subtree ↔
    document.at? node.location = some node.value
  distinct : ∀ path : Path, (∀ segment ∈ path.segments, segment.selector.IsSingle) →
    path.segments.countP Segment.isDescendant ≤ 1 →
    ((path.nodes document).map (·.location)).Nodup
  ordered : ∀ path : Path, (∀ segment ∈ path.segments, segment.selector.IsSingle) →
    (∀ segment ∈ path.segments, segment.isDescendant = false) →
    (path.nodes document).Sublist document.root.subtree
  members : ∀ name, (((Path.everyMember name).nodes document).map (·.location)).Nodup ∧
    ∀ found, found ∈ (Path.everyMember name).nodes document ↔
      ∃ location members, document.at? location = some (.object members) ∧
        (name, found.value) ∈ members ∧ found.location = location ++ [.name name]
  all_but_root : ((Path.everyChild.nodes document).map (·.location)).Nodup ∧
    ∀ found, found ∈ Path.everyChild.nodes document ↔
      found.location ≠ [] ∧ document.at? found.location = some found.value

end Value

namespace Path

theorem nodes_eq (path : Path) (document : Value) :
    path.nodes document = nodesFrom path.segments document.root := by
  rw [nodes, foldl_nodes_eq, List.flatMap_singleton]
  rfl

theorem nodup_nodes {path : Path} (single : ∀ segment ∈ path.segments, segment.selector.IsSingle)
    (descents : path.segments.countP Segment.isDescendant ≤ 1) {document : Value}
    (wellFormed : document.WellFormed) : ((path.nodes document).map (·.location)).Nodup := by
  rw [nodes_eq]
  exact nodup_nodesFrom single descents wellFormed

theorem nodup_nodes_descendant (selector : Selector) (single : selector.IsSingle)
    {document : Value} (wellFormed : document.WellFormed) :
    (((Path.mk [.descendant selector]).nodes document).map (·.location)).Nodup := by
  have each : ∀ segment ∈ (Path.mk [.descendant selector]).segments, segment.selector.IsSingle :=
    List.forall_mem_singleton.mpr single
  have one : (Path.mk [.descendant selector]).segments.countP Segment.isDescendant ≤ 1 :=
    Nat.le_refl 1
  exact nodup_nodes each one wellFormed

theorem mem_nodes_descendant_iff {document : Value} (wellFormed : document.WellFormed)
    (selector : Selector) (found : Node) :
    found ∈ (Path.mk [.descendant selector]).nodes document ↔
      ∃ node, document.at? node.location = some node.value ∧ node.value.WellFormed ∧
        found ∈ selector.select node := by
  rw [nodes_eq]
  simp only [nodesFrom, descendant_nodes, List.flatMap_singleton', List.mem_flatMap]
  constructor
  · rintro ⟨node, below, member⟩
    exact ⟨node, (Value.mem_root_subtree_iff wellFormed node).mp below,
      wellFormed_of_mem_subtree wellFormed below, member⟩
  · rintro ⟨node, located, -, member⟩
    exact ⟨node, (Value.mem_root_subtree_iff wellFormed node).mpr located, member⟩

theorem mem_nodes_everyMember_iff {document : Value} (wellFormed : document.WellFormed)
    (name : String) (found : Node) :
    found ∈ (everyMember name).nodes document ↔
      ∃ location members, document.at? location = some (.object members) ∧
        (name, found.value) ∈ members ∧ found.location = location ++ [.name name] := by
  rw [everyMember, mem_nodes_descendant_iff wellFormed]
  constructor
  · rintro ⟨node, located, nodeFormed, member⟩
    obtain ⟨members, isObject, present, foundLocated⟩ :=
      (mem_select_name_iff nodeFormed name found).mp member
    exact ⟨node.location, members, isObject ▸ located, present, foundLocated⟩
  · rintro ⟨location, members, located, present, foundLocated⟩
    have below : (⟨location, .object members⟩ : Node) ∈ document.root.subtree :=
      (Value.mem_root_subtree_iff wellFormed _).mpr located
    have nodeFormed := wellFormed_of_mem_subtree wellFormed below
    exact ⟨⟨location, .object members⟩, located, nodeFormed,
      (mem_select_name_iff nodeFormed name found).mpr ⟨members, rfl, present, foundLocated⟩⟩

theorem mem_nodes_everyChild_iff {document : Value} (wellFormed : document.WellFormed)
    (found : Node) :
    found ∈ everyChild.nodes document ↔
      found.location ≠ [] ∧ document.at? found.location = some found.value := by
  rw [everyChild, mem_nodes_descendant_iff wellFormed]
  constructor
  · rintro ⟨node, located, nodeFormed, member⟩
    rw [Selector.select, mem_children_iff nodeFormed] at member
    obtain ⟨step, foundLocated, stepped⟩ := member
    rw [foundLocated, Value.at?_append, located, Option.bind_some, Value.at?_cons, stepped]
    exact ⟨by simp, rfl⟩
  · rintro ⟨deep, located⟩
    obtain ⟨before, step, split⟩ := (List.eq_nil_or_concat found.location).resolve_left deep
    rw [split, List.concat_eq_append, Value.at?_append] at located
    obtain ⟨value, upper, lower⟩ := Option.bind_eq_some_iff.mp located
    have below : (⟨before, value⟩ : Node) ∈ document.root.subtree :=
      (Value.mem_root_subtree_iff wellFormed _).mpr upper
    have nodeFormed := wellFormed_of_mem_subtree wellFormed below
    obtain ⟨stepped, present, same⟩ := Option.bind_eq_some_iff.mp lower
    cases same
    refine ⟨⟨before, value⟩, upper, nodeFormed, ?_⟩
    rw [Selector.select, mem_children_iff nodeFormed]
    exact ⟨step, by rw [split, List.concat_eq_append], present⟩

end Path

/-- The matches of a path are nodes of the document, and none of them is lost or found twice. -/
theorem matches_lie {document : Value} (wellFormed : document.WellFormed) :
    document.MatchesLie where
  value_at path := by
    rw [Path.query, List.map_map]
    refine List.map_congr_left fun node member => ?_
    rw [Path.nodes_eq] at member
    have below := mem_subtree_of_mem_nodesFrom member
    exact ((Value.mem_root_subtree_iff wellFormed node).mp below).symm
  descent := descendant_nodes
  preorder := subtree_eq
  below node inDocument := mem_subtree_iff (wellFormed_of_mem_subtree wellFormed inDocument)
  all_below := Value.mem_root_subtree_iff wellFormed
  distinct path single descents := Path.nodup_nodes single descents wellFormed
  ordered path single level := by
    rw [Path.nodes_eq]
    exact nodesFrom_sublist_subtree single level document.root
  members name := ⟨Path.nodup_nodes_descendant (.name name) True.intro wellFormed,
    Path.mem_nodes_everyMember_iff wellFormed name⟩
  all_but_root := ⟨Path.nodup_nodes_descendant .wildcard True.intro wellFormed,
    Path.mem_nodes_everyChild_iff wellFormed⟩

def pricesInside : Value := .object [
  ("price", .number (.int 0)),
  ("items", .array [.object [
    ("price", .number (.int 1)),
    ("sub", .object [("price", .number (.int 2))])]])]

theorem pricesInside_matches_lie :
    pricesInside.WellFormed ∧ pricesInside.MatchesLie ∧
      (((Path.everyMember "price").nodes pricesInside).map (·.location)).Nodup ∧
      (Path.everyMember "price").query pricesInside =
        [.number (.int 0), .number (.int 1), .number (.int 2)] := by
  have wellFormed : pricesInside.WellFormed := by
    have zero : IsWide 0 := by decide
    have one : IsWide 1 := by decide
    have two : IsWide 2 := by decide
    simp [pricesInside, Value.WellFormed, Value.ItemsWellFormed, Value.MembersWellFormed, zero,
      one, two]
  have lie := matches_lie wellFormed
  exact ⟨wellFormed, lie, (lie.members "price").1, rfl⟩

example : (Path.mk [.child (.union [.index 0, .index (-1)])]).query (.array [.null]) =
    [.null, .null] := rfl

end Reconcile
