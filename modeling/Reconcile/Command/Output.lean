import Reconcile.Command.Hours
import Reconcile.Command.Line
import Reconcile.Command.Report

namespace Reconcile.Command

structure Output where
  code : Nat
  stdout : String := ""
  stderr : List String := []
deriving DecidableEq, Repr

def version : String := "mapcheck 0.1.0"

def usage : String :=
  "Mapping-driven source/target consistency checks\n\n"
    ++ "Usage: mapcheck [--emit-pipeline] [--log-level LEVEL] COMMAND\n\n"
    ++ "Commands:\n"
    ++ "  run    Compare a source and target document using a pipeline rules mapping\n"
    ++ "  hours  Expand a compressed business-hours string into per-day records"

structure ErrorDocument where
  error : String
  message : String
  exit : Exit
  details : String × String

def ErrorDocument.toValue (document : ErrorDocument) : Value :=
  .object [("error", .string document.error), ("message", .string document.message),
    ("code", .number (.int document.exit.code)),
    ("details", .object [(document.details.1, .string document.details.2)])]

def ErrorDocument.line (document : ErrorDocument) (serializer : Serializer := .json) : String :=
  match serializer.text document.toValue with
  | .ok line => line
  | .error _ =>
    "\x7b\"error\":\"internal_error\",\"message\":\"failed to serialize error\",\"code\":1\x7d"

/-- A command line that does not fit. The message is that of the library which reads command lines;
its words are left out. -/
def lineError : ErrorDocument where
  error := "input_usage_error"
  message := ""
  exit := .inputError
  details := ("kind", "cli_parse_error")

def ErrorDocument.internal (command message : String) : ErrorDocument where
  error := "internal_error"
  message
  exit := .internalError
  details := ("command", command)

def Stop.output (stop : Stop) (serializer : Serializer := .json) : Output :=
  match stop with
  | .version => { code := 0, stdout := Command.version ++ "\n" }
  | .help => { code := 0, stdout := usage ++ "\n" }
  | .invalid => { code := Exit.inputError.code, stderr := [lineError.line serializer] }

def Report.line (report : Report) (serializer : Serializer := .json) : String :=
  match serializer.text report.toValue with
  | .ok line => line
  | .error cause =>
    let message := "failed to serialize pipeline report: " ++ serializer.message cause
    (ErrorDocument.internal "emit_pipeline" message).line serializer

def Output.internalError (command : Name) (message : String) (serializer : Serializer := .json) :
    Output where
  code := Exit.internalError.code
  stderr := [(ErrorDocument.internal command.text message).line serializer]

/-- What is written of a response, but for the report. A payload goes to the standard output as one
line, or to the error stream if the input was at fault. -/
def Response.emit (response : Response) (command : Name) (serializer : Serializer := .json) :
    Output :=
  let failed (message : String) : Output := .internalError command message serializer
  let unwritten := failed ("failed to serialize " ++ command.text ++ " response")
  match response.exit.code with
  | 0 | 2 =>
    match serializer.text response.payload with
    | .ok line => { code := response.exit.code, stdout := line ++ "\n" }
    | .error _ => unwritten
  | 3 | 1 =>
    match serializer.text response.payload with
    | .ok line => { code := response.exit.code, stderr := [line] }
    | .error _ => unwritten
  | code => failed ("unexpected " ++ command.text ++ " exit code: " ++ code.repr)

def Response.output (response : Response) (command : Name) (report : Option Report)
    (serializer : Serializer := .json) : Output :=
  let emitted := response.emit command serializer
  let reports := report.toList.map fun report => report.line serializer
  { emitted with stderr := emitted.stderr ++ reports }

namespace Invocation

def command (invocation : Invocation) : Name :=
  match invocation.task with
  | .run _ => .run
  | .hours _ => .hours

def response (invocation : Invocation) (files : Files) (serializer : Serializer := .json) :
    Response :=
  match invocation.task with
  | .run options => run files options serializer
  | .hours text => expandHours text serializer

def reportOf (invocation : Invocation) : Report :=
  match invocation.task with
  | .run options => .ofRun options
  | .hours _ => .ofHours

def output (invocation : Invocation) (files : Files) (serializer : Serializer := .json) : Output :=
  (invocation.response files serializer).output invocation.command
    (if invocation.report then some invocation.reportOf else none) serializer

end Invocation

def respond (files : Files) (arguments : List String) (serializer : Serializer := .json) :
    Output :=
  match Line.parse arguments with
  | .ok invocation => invocation.output files serializer
  | .error stop => stop.output serializer

end Reconcile.Command
