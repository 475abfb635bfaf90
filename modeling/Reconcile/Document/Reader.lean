import Reconcile.Document.Csv
import Reconcile.Document.Format
import Reconcile.Document.Lines
import Reconcile.Document.Yaml.Reader
import Reconcile.Files

namespace Reconcile

inductive Role
  | source
  | target
  | mapping
deriving DecidableEq, Repr

def Role.name : Role → String
  | source => "source"
  | target => "target"
  | mapping => "mapping"

inductive ReadError
  | unsupportedFormat (name : String)
  | unsupportedExtension (role : Role) (path : String)
  | notOpened (role : Role) (path : String) (cause : FileError)
  | notRead (format : Format) (cause : FileError)
  | json (cause : Json.Error)
  | yaml (cause : Yaml.Error)
  | csv (cause : Csv.Error)
  | notText
deriving DecidableEq, Repr

namespace ReadError

def formatLabel : Format → String
  | .json => "json parse error: "
  | .yaml => "yaml parse error:"
  | .csv => "csv error: "
  | .jsonl => "io error: "

/-- The words of a message. A text that is no YAML, and one that cannot be read to its end, is told
by the label of YAML alone: what the library that reads YAML says of it is left out. -/
def message : ReadError → String
  | unsupportedFormat name => "unsupported format: " ++ name
  | unsupportedExtension role path =>
    "unsupported " ++ role.name ++ " file extension: " ++ path
  | notOpened role path cause =>
    "failed to open " ++ role.name ++ " file `" ++ path ++ "`: " ++ cause.message
  | notRead .yaml _ => formatLabel .yaml
  | notRead format cause => formatLabel format ++ cause.message
  | json cause => formatLabel .json ++ cause.message
  | yaml .invalid => formatLabel .yaml
  | yaml .keyNotScalar => formatLabel .json ++ "key must be a string"
  | yaml .keyNotFinite => formatLabel .json ++ "float key must be finite (got NaN or +/-inf)"
  | csv cause => formatLabel .csv ++ cause.message
  | notText => formatLabel .jsonl ++ "stream did not contain valid UTF-8"

end ReadError

namespace Format

def ofName (name : String) : Except ReadError Format :=
  match ofName? name with
  | some format => .ok format
  | none => .error (.unsupportedFormat (.ofList (Text.asciiLower name.toList)))

def resolve (given : Option Format) (path : String) (role : Role) : Except ReadError Format :=
  match given.or (ofPath? path) with
  | some format => .ok format
  | none => .error (.unsupportedExtension role path)

def read (format : Format) (input : List UInt8) : Except ReadError Value :=
  match format with
  | .json => (Json.read .stream input).mapError .json
  | .yaml => (Yaml.read input).mapError .yaml
  | .csv => (Csv.read input).mapError .csv
  | .jsonl =>
    match Lines.read input with
    | .ok rows => .ok (.array rows)
    | .error .notText => .error .notText
    | .error (.json cause) => .error (.json cause)

end Format

namespace Files

def readAs (files : Files) (format : Format) (path : String) (role : Role) :
    Except ReadError Value := do
  let entry ← (files.lookup path).mapError (.notOpened role path)
  let content ← entry.content.mapError (.notRead format)
  format.read content

def read (files : Files) (given : Option Format) (path : String) (role : Role) :
    Except ReadError Value := do
  files.readAs (← Format.resolve given path role) path role

end Files

end Reconcile
