import Reconcile.Document.Json.Printer
import Reconcile.Text.Blank

namespace Reconcile

def plainFloatStyle : NumberStyle where
  positional _ := true
  wholeMark := []
  tie := .up

/-- The text by which values are compared and prefixes are joined. -/
def Value.plain : Value → List Char
  | .string s => s.toList
  | .number (.float x) => plainFloatStyle.render x
  | value => value.jsonChars

def Value.text (value : Value) : String := .ofList value.plain

def Text.strip (text : String) : String := .ofList (squeeze text.toList)

end Reconcile
