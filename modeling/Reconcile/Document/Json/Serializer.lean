import Reconcile.Document.Json.Printer

namespace Reconcile

/-- Makes documents of what is to be written, and texts of documents. Both can fail. -/
structure Serializer where
  Failure : Type
  message : Failure → String
  value : Value → Except Failure Value
  text : Value → Except Failure String

/-- Everything there is can be written as JSON. -/
@[reducible]
def Serializer.json : Serializer where
  Failure := Empty
  message := nofun
  value := .ok
  text document := .ok document.json

end Reconcile
