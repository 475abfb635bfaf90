import Reconcile.Number.Binary64

namespace Reconcile.Yaml

inductive Real
  | finite (value : Binary64)
  | infinite (negative : Bool)
  | notANumber
deriving DecidableEq

def Real.same : Real → Real → Bool
  | .finite a, .finite b => a.units == b.units
  | a, b => a = b

inductive Tree
  | null
  | bool (value : Bool)
  | int (value : Int)
  | float (value : Real)
  | string (value : String)
  | sequence (items : List Tree)
  | mapping (members : List (Tree × Tree))
  | tagged (tag : String) (content : Tree)

namespace Tree

mutual

/-- Whether two values are the same key. The members of a mapping have no order, and two zeros are
the same float. -/
def same : Tree → Tree → Bool
  | .null, .null => true
  | .bool a, .bool b => a == b
  | .int a, .int b => a == b
  | .float a, .float b => a.same b
  | .string a, .string b => a == b
  | .sequence a, .sequence b => sameItems a b
  | .mapping a, .mapping b => a.length == b.length && within a b
  | .tagged s a, .tagged t b => s == t && same a b
  | _, _ => false

def sameItems : List Tree → List Tree → Bool
  | [], [] => true
  | a :: as, b :: bs => same a b && sameItems as bs
  | _, _ => false

def within : List (Tree × Tree) → List (Tree × Tree) → Bool
  | [], _ => true
  | (key, value) :: rest, all =>
    all.any (fun (k, v) => same key k && same value v) && within rest all

end

def hasTwins : List (Tree × Tree) → Bool
  | [] => false
  | (key, _) :: rest => rest.any (fun (k, _) => same key k) || hasTwins rest

end Tree

end Reconcile.Yaml
