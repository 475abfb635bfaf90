import Reconcile.Document.Json.Printer
import Reconcile.Document.Json.Reader
import Reconcile.Query.Parser
import Reconcile.Text.Search

namespace Reconcile

namespace Query

def quotedChar (c : Char) : List Char := if c = '\\' ∨ c = '\'' then ['\\', c] else [c]

def writeQuoted (name : String) : List Char := '\'' :: name.toList.flatMap quotedChar ++ ['\'']

def Comparison.symbol : Comparison → List Char
  | .eq => ['=', '=']
  | .ne => ['!', '=']
  | .lt => ['<']
  | .le => ['<', '=']
  | .gt => ['>']
  | .ge => ['>', '=']

def Literal.write : Literal → List Char
  | .string text => writeQuoted text
  | literal => literal.toValue.jsonChars

def writeField (field : List String) : List Char :=
  field.flatMap fun name => '[' :: writeQuoted name ++ [']']

def writeTest : Option (Comparison × Literal) → List Char
  | none => []
  | some (comparison, literal) => ' ' :: comparison.symbol ++ ' ' :: literal.write

def Filter.write (filter : Filter) : List Char :=
  '?' :: '(' :: '@' :: writeField filter.field ++ writeTest filter.test ++ [')']

def writeBound (bound : Option Int) : List Char := bound.elim [] renderInt

namespace Selector

def writeItem : Selector → List Char
  | .name text => writeQuoted text
  | .wildcard => ['*']
  | .index position => renderInt position
  | .slice first last => writeBound first ++ ':' :: writeBound last
  | .filter condition => condition.write
  | .union _ => []

def items : Selector → List Selector
  | .union items => items
  | item => [item]

def write (selector : Selector) : List Char :=
  '[' :: Text.join ',' (selector.items.map writeItem) ++ [']']

def literal? : Selector → Option Literal
  | .filter { test := some (_, literal), .. } => some literal
  | _ => none

end Selector

def Segment.write : Segment → List Char
  | .child selector => selector.write
  | .descendant selector => '.' :: '.' :: selector.write

/-- A number that is read back from its JSON text. Strings are quoted like names, and the constants
are always read back. -/
def Literal.ReadsBack : Literal → Prop
  | .number n => Json.read .text (Text.Utf8.encode n.json) = .ok (.number n)
  | _ => True

end Query

namespace Path

def write (path : Path) : String := .ofList ('$' :: path.segments.flatMap Query.Segment.write)

def literals (path : Path) : List Query.Literal :=
  path.segments.flatMap fun segment => segment.selector.items.filterMap Query.Selector.literal?

end Path

end Reconcile
