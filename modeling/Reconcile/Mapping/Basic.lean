import Reconcile.Address

namespace Reconcile

inductive Method
  | byPath
  | sameFile
  | unsupported
deriving DecidableEq, Repr

def Method.label : Method → String
  | .byPath => "pathbasedcompare"
  | .sameFile => "sameFile"
  | .unsupported => "unsupported"

/-- A comparison rule; a name that is not known is kept for the report. -/
inductive Rule
  | equal
  | equalStripped
  | unrecognized (name : String)
deriving DecidableEq, Repr

namespace Rule

def ofName (name : String) : Rule :=
  if name = "equalValue" then .equal
  else if name = "equalValueAfterStripSpaces" then .equalStripped
  else .unrecognized name

def name : Rule → String
  | .equal => "equalValue"
  | .equalStripped => "equalValueAfterStripSpaces"
  | .unrecognized name => name

end Rule

inductive RuleSet
  | sequence (rules : List Rule)
  | single (rule : Rule)
deriving DecidableEq, Repr

def RuleSet.rules : RuleSet → List Rule
  | .sequence rules => rules
  | .single rule => [rule]

inductive TimeFormat
  | storeHours
  | other (name : String)
deriving DecidableEq, Repr

def TimeFormat.storeHoursName : String := "storeHoursTransformation"

def TimeFormat.ofName (name : String) : TimeFormat :=
  if name = storeHoursName then .storeHours else .other name

inductive Transform
  | removePrefix (address : Address)
  | timeFormat (format : TimeFormat)
  | unrecognized (name : String)
deriving DecidableEq, Repr

namespace Transform

def removePrefixName : String := "removePreText"

def timeFormatName : String := "timeFormatChange"

def name : Transform → String
  | .removePrefix _ => removePrefixName
  | .timeFormat _ => timeFormatName
  | .unrecognized name => name

end Transform

structure Directive where
  method : Method
  source : Option Address
  target : Option Address
  rules : RuleSet
  transforms : List Transform
deriving DecidableEq, Repr

/-- The directives of each pipeline, in the byte order of the pipelines' names. -/
structure Mapping where
  pipelines : List (String × List Directive)
deriving DecidableEq, Repr

def Mapping.directives? (mapping : Mapping) (pipeline : String) : Option (List Directive) :=
  mapping.pipelines.lookup pipeline

end Reconcile
