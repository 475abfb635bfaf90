import Reconcile.Document.Value

namespace Reconcile

namespace Query

inductive Comparison
  | eq
  | ne
  | lt
  | le
  | gt
  | ge
deriving DecidableEq, Repr

inductive Literal
  | null
  | bool (value : Bool)
  | number (value : Number)
  | string (value : String)
deriving DecidableEq

def Literal.toValue : Literal → Value
  | .null => .null
  | .bool b => .bool b
  | .number n => .number n
  | .string s => .string s

/-- A condition on the children of a node: the member that `field` leads to exists and, with a
test, compares as it says. -/
structure Filter where
  field : List String
  test : Option (Comparison × Literal)
deriving DecidableEq

inductive Selector
  | name (name : String)
  | wildcard
  | index (position : Int)
  | slice (start stop : Option Int)
  | union (items : List Selector)
  | filter (filter : Filter)

inductive Segment
  | child (selector : Selector)
  | descendant (selector : Selector)

def Selector.IsItem : Selector → Prop
  | .index n => IsSigned64 n
  | .slice start stop => (∀ n ∈ start, IsSigned64 n) ∧ ∀ n ∈ stop, IsSigned64 n
  | .union _ => False
  | _ => True

/-- A union has at least two items and none of them is a union. -/
def Selector.WellFormed : Selector → Prop
  | .union items => 2 ≤ items.length ∧ ∀ item ∈ items, item.IsItem
  | selector => selector.IsItem

def Segment.selector : Segment → Selector
  | .child selector => selector
  | .descendant selector => selector

end Query

structure Path where
  segments : List Query.Segment

def Path.WellFormed (path : Path) : Prop :=
  ∀ segment ∈ path.segments, segment.selector.WellFormed

end Reconcile
