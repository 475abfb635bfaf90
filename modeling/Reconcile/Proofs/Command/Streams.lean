import Reconcile.Command.Output
import Reconcile.Proofs.Command.Line
import Reconcile.Proofs.Command.Run
import Reconcile.Proofs.Document.Lines
import Reconcile.Proofs.Hours.Agreement
import Reconcile.Proofs.Json.OneLine
import Reconcile.Proofs.Sources

namespace Reconcile

open Text

namespace Command

section

variable {response : Response} {serializer : Serializer} {line : String} (command : Name)

theorem Response.emit_of_answered
    (answered : response.exit = .success ∨ response.exit = .comparisonFailed)
    (written : serializer.text response.payload = .ok line) :
    response.emit command serializer = { code := response.exit.code, stdout := line ++ "\n" } := by
  rcases answered with ended | ended <;> simp only [Response.emit, ended, Exit.code, written]

theorem Response.emit_of_fault
    (fault : response.exit = .inputError ∨ response.exit = .internalError)
    (written : serializer.text response.payload = .ok line) :
    response.emit command serializer = { code := response.exit.code, stderr := [line] } := by
  rcases fault with ended | ended <;> simp only [Response.emit, ended, Exit.code, written]

theorem Response.emit_of_unwritten {cause : serializer.Failure}
    (unwritten : serializer.text response.payload = .error cause) :
    response.emit command serializer =
      .internalError command ("failed to serialize " ++ command.text ++ " response")
        serializer := by
  cases ended : response.exit <;> simp only [Response.emit, ended, Exit.code, unwritten]

/-- The program ends with 1 only if an answer cannot be written, as a document or as its text. -/
theorem code_output_eq_one_iff (report : Option Report) :
    (response.output command report serializer).code = 1 ↔
      response.exit = .internalError ∨
        ∃ cause, serializer.text response.payload = .error cause := by
  rw [Response.output]
  cases written : serializer.text response.payload with
  | error cause =>
    simp [Response.emit_of_unwritten command written, Output.internalError, Exit.code]
  | ok line =>
    cases ended : response.exit with
    | success | comparisonFailed =>
      simp [Response.emit_of_answered command _ written, ended, Exit.code]
    | inputError | internalError =>
      simp [Response.emit_of_fault command _ written, ended, Exit.code]

end

section

variable {invocation other : Invocation}

end

end Command

end Reconcile
