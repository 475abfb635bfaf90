import Reconcile.Document.Json.Printer
import Reconcile.Mapping.Basic
import Reconcile.Text.Quoted

namespace Reconcile

namespace Mapping

inductive DecodeError
  | wrongKind (found : Value) (expected : String)
  | missingMember (name : String)
  | tooShort (length : Nat) (expected : String)
  | tooLong (length : Nat)
  | severalMethods
  | noRuleSet
  | prefixNotString

def describe : Value → String
  | .null => "null"
  | .bool b => "boolean `" ++ (Value.bool b).json ++ "`"
  | .number (.int n) => "integer `" ++ (Value.number (.int n)).json ++ "`"
  | .number (.float x) => "floating point `" ++ (Value.number (.float x)).json ++ "`"
  | .string s => "string " ++ Text.quoted s
  | .array _ => "sequence"
  | .object _ => "map"

def DecodeError.message : DecodeError → String
  | .wrongKind found expected => "invalid type: " ++ describe found ++ ", expected " ++ expected
  | .missingMember name => "missing field `" ++ name ++ "`"
  | .tooShort length expected => "invalid length " ++ length.repr ++ ", expected " ++ expected
  | .tooLong length => "invalid length " ++ length.repr ++ ", expected fewer elements in array"
  | .severalMethods => "invalid value: map, expected map with a single key"
  | .noRuleSet => "data did not match any variant of untagged enum RuleSet"
  | .prefixNotString =>
    "transformation rule `" ++ Transform.removePrefixName ++ "` expects a string parameter"

abbrev Decode (α : Type) := Value → Except DecodeError α

def methodOfName (name : String) : Method :=
  if name = "pathbasedcompare" ∨ name = "pathBasedCompare" then .byPath
  else if name = "sameFile" then .sameFile
  else .unsupported

/-- A name, or an object with the name as its only member and nothing in it. -/
def decodeMethod : Decode Method
  | .string name => .ok (methodOfName name)
  | .object [(name, .null)] => .ok (methodOfName name)
  | .object [(_, value)] => .error (.wrongKind value "unit")
  | .object _ => .error .severalMethods
  | value => .error (.wrongKind value "string or map")

def decodeAddress : Decode (Option Address)
  | .null => .ok none
  | .string text => .ok (some (.parse text))
  | value => .error (.wrongKind value "a string")

/-- A rule, which is an object with the member `ruleName` or a list of its name alone. -/
def rule? : Value → Option Rule
  | .object members =>
    match members.lookup "ruleName" with
    | some (.string name) => some (.ofName name)
    | _ => none
  | .array [.string name] => some (.ofName name)
  | _ => none

/-- A list of rules if every item is one, else a single rule. -/
def decodeRules (value : Value) : Except DecodeError RuleSet :=
  let sequence? := match value with
    | .array items => (items.mapM rule?).map RuleSet.sequence
    | _ => none
  match sequence?.or ((rule? value).map .single) with
  | some rules => .ok rules
  | none => .error .noRuleSet

def decodeTransform (name : String) (parameter : Value) : Except DecodeError Transform :=
  if name = Transform.removePrefixName then
    match parameter with
    | .string text => .ok (.removePrefix (.parse text))
    | _ => .error .prefixNotString
  else if name = Transform.timeFormatName then
    match parameter with
    | .string format => .ok (.timeFormat (.ofName format))
    | other => .ok (.timeFormat (.other other.json))
  else .ok (.unrecognized name)

def decodeTransforms : Decode (List Transform)
  | .null => .ok []
  | .object members => members.mapM fun (name, parameter) => decodeTransform name parameter
  | value => .error (.wrongKind value "a map")

structure Draft where
  method : Option Method := none
  source : Option Address := none
  target : Option Address := none
  rules : RuleSet := .sequence []
  transforms : List Transform := []

def Draft.read (directive : Draft) (name : String) (value : Value) :
    Except DecodeError Draft := do
  match name with
  | "method" => return { directive with method := some (← decodeMethod value) }
  | "source_path" => return { directive with source := ← decodeAddress value }
  | "target_path" => return { directive with target := ← decodeAddress value }
  | "rules" => return { directive with rules := ← decodeRules value }
  | "transformation_rules" => return { directive with transforms := ← decodeTransforms value }
  | _ => return directive

def partNames : List String :=
  ["method", "source_path", "target_path", "rules", "transformation_rules"]

def Draft.readAll (members : List (String × Value)) : Except DecodeError Draft :=
  members.foldlM (fun directive (name, value) => directive.read name value) {}

def Draft.finish (directive : Draft) (missing : DecodeError) : Except DecodeError Directive :=
  match directive.method with
  | some method =>
    .ok {
      method, source := directive.source, target := directive.target, rules := directive.rules,
      transforms := directive.transforms }
  | none => .error missing

def decodeDirective : Decode Directive
  | .object members => do
    (← Draft.readAll members).finish (.missingMember "method")
  | .array items => do
    let directive ← Draft.readAll (partNames.zip items)
    let directive ← directive.finish (.tooShort 0 "struct ComparisonDirective with 5 elements")
    if partNames.length < items.length then .error (.tooLong items.length) else return directive
  | value => .error (.wrongKind value "struct ComparisonDirective")

def decodeDirectives : Decode (List Directive)
  | .array items => items.mapM decodeDirective
  | value => .error (.wrongKind value "a sequence")

def insertPipeline (name : String) (directives : List Directive) :
    List (String × List Directive) → List (String × List Directive)
  | [] => [(name, directives)]
  | (n, ds) :: rest =>
    if name < n then (name, directives) :: (n, ds) :: rest
    else if name = n then (name, directives) :: rest
    else (n, ds) :: insertPipeline name directives rest

def decodePipelines : Decode Mapping
  | .object members => do
    let pipelines ← members.mapM fun (name, value) =>
      return (name, ← decodeDirectives value)
    return ⟨pipelines.foldl (fun built (name, ds) => insertPipeline name ds built) []⟩
  | value => .error (.wrongKind value "a map")

/-- The mapping that a value is, or the first part of it that does not fit. Members with other names
do not count. -/
def decode : Decode Mapping
  | .object members =>
    match members.lookup "mapping" with
    | some value => decodePipelines value
    | none => .ok ⟨[]⟩
  | .array [] => .ok ⟨[]⟩
  | .array (value :: more) => do
    let mapping ← decodePipelines value
    if more.isEmpty then return mapping else .error (.tooLong (more.length + 1))
  | value => .error (.wrongKind value "struct MappingSpecification")

end Mapping

end Reconcile
