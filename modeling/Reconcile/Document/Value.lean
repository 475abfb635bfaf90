import Reconcile.Number.Binary64

namespace Reconcile

inductive Number
  | int (value : Int)
  | float (value : Binary64)
deriving DecidableEq

/-- The nearest binary64 number. Whole numbers of a document are far below the largest one. -/
def Number.toBinary64 : Number → Binary64
  | .int n => (Binary64.ofInt n).getD (.zero false)
  | .float x => x

/-- A value with the six kinds of JSON. The members of an object keep their order. -/
inductive Value
  | null
  | bool (value : Bool)
  | number (value : Number)
  | string (value : String)
  | array (items : List Value)
  | object (members : List (String × Value))

namespace Value

inductive Kind
  | null
  | boolean
  | number
  | string
  | array
  | object
deriving DecidableEq, Repr

def Kind.name : Kind → String
  | null => "null"
  | boolean => "boolean"
  | number => "number"
  | string => "string"
  | array => "array"
  | object => "object"

def kind : Value → Kind
  | .null => .null
  | .bool _ => .boolean
  | .number _ => .number
  | .string _ => .string
  | .array _ => .array
  | .object _ => .object

def member? (name : String) : Value → Option Value
  | .object members => members.lookup name
  | _ => none

def children : Value → List Value
  | .array items => items
  | .object members => members.map (·.2)
  | _ => []

/-- Gives `name` the value `value`: in its place if it has one, else at the end. -/
def insertMember (name : String) (value : Value) : List (String × Value) → List (String × Value)
  | [] => [(name, value)]
  | (n, v) :: rest =>
    if n = name then (n, value) :: rest else (n, v) :: insertMember name value rest

def ofMembers (members : List (String × Value)) : Value :=
  .object (members.foldl (fun built (name, value) => insertMember name value built) [])

mutual

/-- The values that documents hold: whole numbers are in range and no object has two members of
one name. -/
def WellFormed : Value → Prop
  | .number (.int n) => IsWide n
  | .array items => ItemsWellFormed items
  | .object members => (members.map (·.1)).Nodup ∧ MembersWellFormed members
  | _ => True

def ItemsWellFormed : List Value → Prop
  | [] => True
  | item :: items => item.WellFormed ∧ ItemsWellFormed items

def MembersWellFormed : List (String × Value) → Prop
  | [] => True
  | (_, value) :: members => value.WellFormed ∧ MembersWellFormed members

end

theorem wellFormed_array_iff (items : List Value) :
    (array items).WellFormed ↔ ∀ item ∈ items, item.WellFormed := by
  rw [WellFormed]
  induction items with
  | nil => simp [ItemsWellFormed]
  | cons item items ih => rw [ItemsWellFormed, List.forall_mem_cons, ih]

theorem wellFormed_object_iff (members : List (String × Value)) :
    (object members).WellFormed ↔
      (members.map (·.1)).Nodup ∧ ∀ member ∈ members, member.2.WellFormed := by
  have parts : MembersWellFormed members ↔ ∀ member ∈ members, member.2.WellFormed := by
    induction members with
    | nil => simp [MembersWellFormed]
    | cons member members ih => rw [MembersWellFormed, List.forall_mem_cons, ih]
  rw [WellFormed, parts]

end Value

end Reconcile
