namespace Reconcile.Hours

inductive Day
  | mon
  | tue
  | wed
  | thu
  | fri
  | sat
  | sun
deriving DecidableEq, Repr

namespace Day

def week : List Day := [mon, tue, wed, thu, fri, sat, sun]

def abbreviation : Day → String
  | mon => "Mon"
  | tue => "Tue"
  | wed => "Wed"
  | thu => "Thu"
  | fri => "Fri"
  | sat => "Sat"
  | sun => "Sun"

def index (day : Day) : Nat := week.idxOf day

def ofAbbreviation? (text : String) : Option Day := week.find? (·.abbreviation == text)

/-- The days from one to another in week order; none if the second comes first. -/
def through (first last : Day) : List Day :=
  week.filter fun day => first.index ≤ day.index && day.index ≤ last.index

end Day

end Reconcile.Hours
