import Reconcile.Document.Step
import Reconcile.Query.Basic

namespace Reconcile

structure Node where
  location : List Step
  value : Value

namespace Query

def itemNodes (location : List Step) (items : List Value) : List Node :=
  items.mapIdx fun position value => ⟨location ++ [.index position], value⟩

def memberNodes (location : List Step) (members : List (String × Value)) : List Node :=
  members.map fun (name, value) => ⟨location ++ [.name name], value⟩

def children (node : Node) : List Node :=
  match node.value with
  | .array items => itemNodes node.location items
  | .object members => memberNodes node.location members
  | _ => []

mutual

def subtree (location : List Step) : Value → List Node
  | .array items => ⟨location, .array items⟩ :: itemSubtrees location 0 items
  | .object members => ⟨location, .object members⟩ :: memberSubtrees location members
  | value => [⟨location, value⟩]

def itemSubtrees (location : List Step) (position : Nat) : List Value → List Node
  | [] => []
  | item :: items =>
    subtree (location ++ [.index position]) item ++ itemSubtrees location (position + 1) items

def memberSubtrees (location : List Step) : List (String × Value) → List Node
  | [] => []
  | (name, value) :: members =>
    subtree (location ++ [.name name]) value ++ memberSubtrees location members

end

/-- The position that an index denotes in a list of this length; negative ones count from the
end. -/
def position? (index : Int) (length : Nat) : Option Nat :=
  let position := if index < 0 then length + index else index
  if 0 ≤ position ∧ position < length then some position.toNat else none

def clamp (bound : Int) (length : Nat) : Nat :=
  let position := if bound < 0 then length + bound else bound
  min position.toNat length

def sliceOf {α : Type} (start stop : Option Int) (items : List α) : List α :=
  let first := start.elim 0 (clamp · items.length)
  let last := stop.elim items.length (clamp · items.length)
  (items.take last).drop first

/-- The order of a value and a literal: numbers by their nearest binary64 values, strings by code
points, nothing else. -/
def order? : Value → Literal → Option Ordering
  | .number a, .number b => some (a.toBinary64.compare b.toBinary64)
  | .string a, .string b => some (compare a b)
  | _, _ => none

def same : Value → Literal → Bool
  | .null, .null => true
  | .bool a, .bool b => a == b
  | _, _ => false

def Comparison.holds (comparison : Comparison) (value : Value) (literal : Literal) : Bool :=
  let order := order? value literal
  match comparison with
  | .eq => order.elim (same value literal) (· == .eq)
  | .ne => order.elim (!same value literal) (· != .eq)
  | .lt => order.any (· == .lt)
  | .le => order.any (· != .gt)
  | .gt => order.any (· == .gt)
  | .ge => order.any (· != .lt)

def follow? (field : List String) (value : Value) : Option Value :=
  field.foldlM (fun value name => value.member? name) value

def Filter.accepts (filter : Filter) (value : Value) : Bool :=
  match follow? filter.field value, filter.test with
  | none, _ => false
  | some _, none => true
  | some found, some (comparison, literal) => comparison.holds found literal

mutual

def Selector.select (node : Node) : Selector → List Node
  | .name name =>
    match node.value.member? name with
    | some value => [⟨node.location ++ [.name name], value⟩]
    | none => []
  | .wildcard => children node
  | .index index =>
    match node.value with
    | .array items =>
      match position? index items.length with
      | some position => ((itemNodes node.location items)[position]?).toList
      | none => []
    | _ => []
  | .slice start stop =>
    match node.value with
    | .array items => sliceOf start stop (itemNodes node.location items)
    | _ => []
  | .union items => selectAll node items
  | .filter filter => (children node).filter fun child => filter.accepts child.value

def selectAll (node : Node) : List Selector → List Node
  | [] => []
  | item :: items => item.select node ++ selectAll node items

end

def Segment.nodes (segment : Segment) (node : Node) : List Node :=
  match segment with
  | .child selector => selector.select node
  | .descendant selector => (subtree node.location node.value).flatMap selector.select

end Query

def Path.nodes (path : Path) (document : Value) : List Node :=
  path.segments.foldl (fun nodes segment => nodes.flatMap segment.nodes) [⟨[], document⟩]

def Path.query (path : Path) (document : Value) : List Value :=
  (path.nodes document).map (·.value)

end Reconcile
