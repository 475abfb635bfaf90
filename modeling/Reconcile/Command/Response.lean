import Reconcile.Document.Value

namespace Reconcile.Command

inductive Exit
  | success
  | internalError
  | comparisonFailed
  | inputError
deriving DecidableEq, Repr

def Exit.code : Exit → Nat
  | success => 0
  | internalError => 1
  | comparisonFailed => 2
  | inputError => 3

structure Response where
  exit : Exit
  payload : Value

def errorMember : String × Value := ("error", .string "input_usage_error")

def Response.inputError (message : String) : Response where
  exit := .inputError
  payload := .object [errorMember, ("message", .string message)]

def Response.internalError (message : String) : Response where
  exit := .internalError
  payload := .object [("error", .string "internal_error"), ("message", .string message)]

end Reconcile.Command
