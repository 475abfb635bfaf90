import Reconcile.Command.Run

namespace Reconcile.Command

inductive LogLevel
  | error
  | warn
  | info
  | debug
  | trace
deriving DecidableEq, Repr

def LogLevel.ofName? (name : String) : Option LogLevel :=
  match name with
  | "error" => some error
  | "warn" => some warn
  | "info" => some info
  | "debug" => some debug
  | "trace" => some trace
  | _ => none

inductive Task
  | run (options : RunOptions)
  | hours (text : String)

structure Invocation where
  task : Task
  report : Bool := false
  logLevel : LogLevel := .warn

inductive Stop
  | version
  | help
  | invalid
deriving DecidableEq, Repr

namespace Line

structure Setting where
  name : String
  accepts : String → Bool := fun _ => true

structure Level where
  flags : List String
  settings : List Setting
  words : Nat := 0
  commands : List String := []
  hasVersion : Bool := false

structure Reading where
  flags : List String := []
  values : List (String × String) := []
  words : List String := []
  command : Option (String × List String) := none
deriving DecidableEq, Repr

def Reading.value? (reading : Reading) (name : String) : Option String :=
  reading.values.lookup name

def longBody? (argument : String) : Option (List Char) :=
  match argument.toList with
  | '-' :: '-' :: body => some body
  | _ => none

/-- Whether an argument looks like an option. A single hyphen does not. -/
def looksLikeOption (argument : String) : Bool :=
  match argument.toList with
  | '-' :: _ :: _ => true
  | _ => false

def splitValue (body : List Char) : String × Option String :=
  match Text.cutAt '=' body with
  | some (name, value) => (.ofList name, some (.ofList value))
  | none => (.ofList body, none)

namespace Reading

def addFlag (reading : Reading) (name : String) (attached : Option String) :
    Except Stop Reading :=
  if attached.isSome || reading.flags.contains name then .error .invalid
  else .ok { reading with flags := name :: reading.flags }

def addValue (reading : Reading) (setting : Setting) (value : String) : Except Stop Reading :=
  if !setting.accepts value || (reading.value? setting.name).isSome then .error .invalid
  else .ok { reading with values := (setting.name, value) :: reading.values }

def addWords (reading : Reading) (level : Level) (words : List String) : Except Stop Reading :=
  let words := reading.words ++ words
  if level.words < words.length then .error .invalid else .ok { reading with words }

end Reading

def stopOfShort (level : Level) (argument : String) : Stop :=
  match argument.toList with
  | _ :: 'h' :: _ => .help
  | _ :: 'V' :: _ => if level.hasVersion then .version else .invalid
  | _ => .invalid

def stopOfLong (level : Level) (name : String) (attached : Option String) : Stop :=
  if attached.isSome then .invalid
  else if name = "help" then .help
  else if name = "version" ∧ level.hasVersion then .version
  else .invalid

def stopOfWord (level : Level) (argument : String) (rest : List String) : Stop :=
  if argument ≠ "help" then .invalid
  else match rest with
    | [] => .help
    | [name] => if level.commands.contains name || name = "help" then .help else .invalid
    | _ => .invalid

/-- Reads the arguments of a level from left to right. A flag or an option stands there at most
once, and an option takes its value after `=` or from the next argument, which may not look like an
option. `--` ends the options, and the name of a command ends the level. -/
def Level.read (level : Level) (reading : Reading) : List String → Except Stop Reading
  | [] => .ok reading
  | argument :: rest =>
    if argument = "--" then reading.addWords level rest
    else match longBody? argument with
      | some body =>
        let (name, attached) := splitValue body
        if level.flags.contains name then
          match reading.addFlag name attached with
          | .ok reading => level.read reading rest
          | .error stop => .error stop
        else match level.settings.find? (·.name == name), attached, rest with
          | some setting, some value, rest =>
            match reading.addValue setting value with
            | .ok reading => level.read reading rest
            | .error stop => .error stop
          | some _, none, [] => .error .invalid
          | some setting, none, value :: rest =>
            if looksLikeOption value then .error .invalid
            else match reading.addValue setting value with
              | .ok reading => level.read reading rest
              | .error stop => .error stop
          | none, _, _ => .error (stopOfLong level name attached)
      | none =>
        if looksLikeOption argument then .error (stopOfShort level argument)
        else if level.commands.contains argument then
          .ok { reading with command := some (argument, rest) }
        else if !level.commands.isEmpty then .error (stopOfWord level argument rest)
        else match reading.addWords level [argument] with
          | .ok reading => level.read reading rest
          | .error stop => .error stop

def reportFlag : String := "emit-pipeline"

def collectFlag : String := "collect"

def logLevelSetting : Setting where
  name := "log-level"
  accepts value := (LogLevel.ofName? value).isSome

def format? (name : String) : Option Format :=
  [Format.json, .yaml, .csv, .jsonl].find? (·.name == name)

def pathSetting (name : String) : Setting where
  name
  accepts value := value != ""

def formatSetting (name : String) : Setting where
  name
  accepts value := (format? value).isSome

def topLevel : Level where
  flags := [reportFlag]
  settings := [logLevelSetting]
  commands := ["run", "hours"]
  hasVersion := true

def hoursLevel : Level where
  flags := [reportFlag]
  settings := [logLevelSetting]
  words := 1

def runLevel : Level where
  flags := [reportFlag, collectFlag]
  settings := [
    logLevelSetting, { name := "pipeline" }, pathSetting "source", pathSetting "target",
    formatSetting "source-format", formatSetting "target-format", pathSetting "mapping",
    pathSetting "mapping-dir"]

/-- Where the mapping comes from; a file and a directory exclude each other. -/
def mappings? (reading : Reading) : Option MappingSource :=
  match reading.value? "mapping", reading.value? "mapping-dir" with
  | some _, some _ => none
  | some path, none => some (.file path)
  | none, some path => some (.directory path)
  | none, none => some (.directory MappingSource.defaultDirectory)

def runOptions? (reading : Reading) : Option RunOptions := do
  return {
    pipeline := ← reading.value? "pipeline"
    source := ← reading.value? "source"
    target := ← reading.value? "target"
    sourceFormat := (reading.value? "source-format").bind format?
    targetFormat := (reading.value? "target-format").bind format?
    mappings := ← mappings? reading
    policy := if reading.flags.contains collectFlag then .collectAll else .failFast }

def task? (name : String) (reading : Reading) : Option Task :=
  match name, reading.words with
  | "run", [] => (runOptions? reading).map .run
  | "hours", [text] => some (.hours text)
  | _, _ => none

/-- The log level, of which the one behind the command counts first. -/
def logLevel (outer inner : Reading) : LogLevel :=
  (((inner.value? logLevelSetting.name).or (outer.value? logLevelSetting.name)).bind
    LogLevel.ofName?).getD .warn

def parse (arguments : List String) : Except Stop Invocation := do
  let outer ← topLevel.read {} arguments
  match outer.command with
  | none => .error .invalid
  | some (name, rest) =>
    let inner ← (if name = "run" then runLevel else hoursLevel).read {} rest
    match task? name inner with
    | none => .error .invalid
    | some task =>
      return {
        task
        report := outer.flags.contains reportFlag || inner.flags.contains reportFlag
        logLevel := logLevel outer inner }

end Line

end Reconcile.Command
