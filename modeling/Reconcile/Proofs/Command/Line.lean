import Reconcile.Command.Line
import Reconcile.Proofs.Fallible

namespace Reconcile.Command.Line

/-- Another reading that has some flags more, and that may have other values for some names. -/
structure Reading.Extends (flags names : List String) (reading other : Reading) : Prop where
  flag : ∀ flag, flag ∈ other.flags ↔ flag ∈ flags ∨ flag ∈ reading.flags
  value : ∀ name ∉ names, other.value? name = reading.value? name
  words : other.words = reading.words
  command : other.command = reading.command

variable {flags names : List String} {level : Level}

namespace Reading.Extends

variable {reading other next otherNext : Reading} (more : reading.Extends flags names other)

include more

theorem addFlag {name : String} {attached : Option String}
    (added : reading.addFlag name attached = .ok next)
    (otherAdded : other.addFlag name attached = .ok otherNext) :
    next.Extends flags names otherNext := by
  unfold Reading.addFlag at added otherAdded
  split at added <;> cases added
  split at otherAdded <;> cases otherAdded
  refine ⟨fun flag => ?_, more.value, more.words, more.command⟩
  rw [List.mem_cons, List.mem_cons, more.flag flag, or_left_comm]

theorem addValue {setting : Setting} {value : String}
    (added : reading.addValue setting value = .ok next)
    (otherAdded : other.addValue setting value = .ok otherNext) :
    next.Extends flags names otherNext := by
  unfold Reading.addValue at added otherAdded
  split at added <;> cases added
  split at otherAdded <;> cases otherAdded
  refine ⟨more.flag, fun name notFree => ?_, more.words, more.command⟩
  have same := more.value name notFree
  simp only [Reading.value?] at same ⊢
  rw [List.lookup_cons, List.lookup_cons, same]

theorem addWords {words : List String} (added : reading.addWords level words = .ok next)
    (otherAdded : other.addWords level words = .ok otherNext) :
    next.Extends flags names otherNext := by
  unfold Reading.addWords at added otherAdded
  simp only at added otherAdded
  split at added <;> cases added
  split at otherAdded <;> cases otherAdded
  exact ⟨more.flag, more.value, by rw [more.words], more.command⟩

end Reading.Extends

def innerLevel (name : String) : Level := if name = "run" then runLevel else hoursLevel

/-- How an invocation comes from what stands before the name of the command and behind it. -/
structure Parsed (outer inner : Reading) (name : String) (rest : List String)
    (invocation : Invocation) : Prop where
  command : outer.command = some (name, rest)
  innerRead : (innerLevel name).read {} rest = .ok inner
  task : task? name inner = some invocation.task
  report : invocation.report = true ↔ reportFlag ∈ outer.flags ∨ reportFlag ∈ inner.flags
  logLevel : invocation.logLevel = logLevel outer inner

variable {arguments : List String} {invocation other : Invocation}

theorem parse_eq_ok_iff (arguments : List String) (invocation : Invocation) :
    parse arguments = .ok invocation ↔
      ∃ outer inner name rest, topLevel.read {} arguments = .ok outer ∧
        Parsed outer inner name rest invocation := by
  rw [parse, Fallible.bind_eq_ok_iff]
  constructor
  · rintro ⟨outer, outerRead, parsed⟩
    split at parsed
    · cases parsed
    · rename_i name rest command
      obtain ⟨inner, innerRead, parsed⟩ := (Fallible.bind_eq_ok_iff _ _ _).mp parsed
      split at parsed
      · cases parsed
      · rename_i task known
        cases parsed
        exact ⟨outer, inner, name, rest, outerRead, command, innerRead, known, by simp, rfl⟩
  · rintro ⟨outer, inner, name, rest, outerRead, command, innerRead, known, report, level⟩
    refine ⟨outer, outerRead, ?_⟩
    obtain ⟨task, wanted, loggedAt⟩ := invocation
    have level : loggedAt = logLevel outer inner := level
    have sameReport : (outer.flags.contains reportFlag || inner.flags.contains reportFlag) =
        wanted := by
      rw [Bool.eq_iff_iff, report]
      simp
    rw [innerLevel] at innerRead
    simp only [command, innerRead, known, sameReport, level, Fallible.ok_bind]
    rfl

/-- Whether one invocation asks for the same as another, but for a report if `flags` has its flag
and for the log level if `names` has its name. -/
structure Invocation.Extends (flags names : List String) (invocation other : Invocation) :
    Prop where
  task : other.task = invocation.task
  report : other.report = true ↔ reportFlag ∈ flags ∨ invocation.report = true
  logLevel : logLevelSetting.name ∉ names → other.logLevel = invocation.logLevel

end Reconcile.Command.Line
