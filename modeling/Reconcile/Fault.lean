import Reconcile.Document.Reader
import Reconcile.Document.Step
import Reconcile.Hours.Error
import Reconcile.Mapping.Decode
import Reconcile.Query.Error

namespace Reconcile

inductive ExtractionError
  | query (cause : Query.Error)
  | notArray (selector : String) (found : Value.Kind)
  | notObject (field : String) (index : Nat) (found : Value.Kind)
  | missingField (field : String) (index : Nat)
deriving DecidableEq, Repr

def ExtractionError.message : ExtractionError → String
  | query cause => cause.message
  | notArray selector found =>
    "`" ++ selector ++ "|path` addressing expects an array document, got " ++ found.name
  | notObject field index found =>
    "element #" ++ index.repr ++ " is " ++ found.name ++ ", not an object; cannot read `" ++ field
      ++ "`"
  | missingField field index => "element #" ++ index.repr ++ " has no field `" ++ field ++ "`"

inductive Operation
  | removePrefix
  | storeHours
  | strippedComparison
deriving DecidableEq, Repr

def Operation.name : Operation → String
  | removePrefix => Transform.removePrefixName
  | storeHours => TimeFormat.storeHoursName
  | strippedComparison => Rule.equalStripped.name

inductive InputError
  | notString (operation : Operation) (found : Value.Kind)
  | hours (cause : Hours.Error)
deriving DecidableEq, Repr

def InputError.message : InputError → String
  | notString operation found =>
    operation.name ++ " expects a string value, got " ++ found.name
  | hours cause => TimeFormat.storeHoursName ++ " failed: " ++ cause.message

inductive Side
  | source
  | target
deriving DecidableEq, Repr

def Side.addressName : Side → String
  | source => "source_path"
  | target => "target_path"

inductive ConfigurationError
  | unknownPipeline (pipeline : String)
  | mappingNotRead (path : String) (cause : ReadError)
  | mappingInvalid (path : String) (cause : Mapping.DecodeError)
  | missingPipeline (pipeline : String)
  | missingAddress (pipeline : String) (index : Nat) (side : Side)

def ConfigurationError.message : ConfigurationError → String
  | unknownPipeline pipeline =>
    "unknown pipeline `" ++ pipeline ++ "`: no rules mapping file is registered for it"
  | mappingNotRead path cause =>
    "failed to read rules mapping `" ++ path ++ "`: " ++ cause.message
  | mappingInvalid path cause => "invalid rules mapping `" ++ path ++ "`: " ++ cause.message
  | missingPipeline pipeline => "rules mapping does not define pipeline `" ++ pipeline ++ "`"
  | missingAddress pipeline index side =>
    "directive #" ++ index.repr ++ " of pipeline `" ++ pipeline ++ "` is missing `"
      ++ side.addressName ++ "`"

inductive Fault
  | configuration (cause : ConfigurationError)
  | lengthMismatch (address : Address) (sourceLength targetLength : Nat)
  | unknownRule (name : String)
  | valueMismatch (step : Step) (source target : Value)
  | input (cause : InputError)
  | extraction (cause : ExtractionError)

namespace Fault

def message : Fault → String
  | configuration cause => cause.message
  | lengthMismatch address sourceLength targetLength =>
    "mismatch in items size for " ++ address.text ++ ": source has " ++ sourceLength.repr
      ++ " items, target has " ++ targetLength.repr
  | unknownRule name => "no matching rule `" ++ name ++ "` found to execute"
  | valueMismatch step source target =>
    "mismatch in values of source and target at `" ++ step.path ++ "`: source " ++ source.json
      ++ ", target " ++ target.json
  | input cause => cause.message
  | extraction cause => cause.message

def label : Fault → String
  | configuration _ => "configuration_error"
  | lengthMismatch .. => "length_mismatch"
  | unknownRule _ => "unknown_rule"
  | valueMismatch .. => "value_mismatch"
  | input _ => "transform_input_error"
  | extraction _ => "extraction_error"

end Fault

end Reconcile
