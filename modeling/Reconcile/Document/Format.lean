import Reconcile.Text.Blank

namespace Reconcile

inductive Format
  | json
  | yaml
  | csv
  | jsonl
deriving DecidableEq, Repr

namespace Format

def name : Format → String
  | json => "json"
  | yaml => "yaml"
  | csv => "csv"
  | jsonl => "jsonl"

def ofLowerName? (name : String) : Option Format :=
  match name with
  | "json" => some json
  | "yaml" | "yml" => some yaml
  | "csv" => some csv
  | "jsonl" | "ndjson" => some jsonl
  | _ => none

def ofName? (name : String) : Option Format :=
  ofLowerName? (.ofList (Text.asciiLower name.toList))

/-- The last part of a path, if it names a file. Empty parts and dots do not count. -/
def fileName? (path : List Char) : Option (List Char) :=
  let parts := (Text.splitOn '/' path).filter fun part => part != [] && part != ['.']
  match parts.getLast? with
  | some name => if name = ['.', '.'] then none else some name
  | none => none

/-- What stands after the last dot of a file name, unless that is its first character. -/
def extension? (path : String) : Option String := do
  let name ← fileName? path.toList
  let (suffix, before) := name.reverse.span (· != '.')
  match before with
  | _ :: _ :: _ => some (.ofList suffix.reverse)
  | _ => none

def ofPath? (path : String) : Option Format := do ofName? (← extension? path)

end Format

end Reconcile
