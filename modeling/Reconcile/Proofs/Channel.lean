import Reconcile.Proofs.Conclusion

namespace Reconcile

namespace Engine

def trace (engine : Engine) (files : Files) (request : Request) : List Message :=
  (engine.execute files request []).2

theorem trace_eq (engine : Engine) (files : Files) (request : Request) :
    engine.trace files request = engine.messages files request := by
  simp only [trace, execute_eq, List.nil_append]

/-- A run adds its trace to a channel and does not look at what the channel holds. -/
theorem execute_eq_append_trace (engine : Engine) (files : Files) (request : Request)
    (channel : List Message) :
    engine.execute files request channel =
      ((engine.execute files request []).1, channel ++ engine.trace files request) := by
  simp only [trace_eq, execute_eq]

theorem executeAll_eq_mapIdx (engine : Engine) (files : Files) (channel : List Message)
    (requests : List Request) :
    engine.executeAll files channel requests =
      requests.mapIdx fun index request =>
        ((engine.execute files request []).1,
          channel ++ (requests.take (index + 1)).flatMap (engine.trace files)) := by
  induction requests generalizing channel with
  | nil => rfl
  | cons request requests ih =>
    rw [executeAll, execute_eq_append_trace engine files request channel, List.mapIdx_cons, ih]
    simp [List.append_assoc]

end Engine

/-- How the result of a run on a channel, its evaluation and its trace belong together. -/
structure Protocol (result : Except Fault Summary) (evaluation : Except Failure Summary)
    (trace : List Message) : Prop where
  length_le_one : trace.length ≤ 1
  completed_iff : ∀ summary,
    result = .ok summary ∧ summary.status = .completed ↔ evaluation = .ok summary
  completed_trace_iff : ∀ summary, trace = [.completed summary] ↔ evaluation = .ok summary
  failed_iff : (∃ summary, result = .ok summary ∧ summary.status = .failed) ↔
    ∃ faults, evaluation = .error (.reported faults)
  failed_trace : ∀ summary faults, result = .ok summary → evaluation = .error (.reported faults) →
    ∃ first rest, faults = first :: rest ∧ trace = [.failed first] ∧
      summary.reported = faults.length
  aborted_iff : ∀ fault, result = .error fault ↔ evaluation = .error (.aborted fault)
  aborted_trace : ∀ fault, result = .error fault →
    (∀ summary, .completed summary ∉ trace) ∧ .failed fault ∉ trace
  not_running : ∀ summary, result = .ok summary → summary.status ≠ .running

namespace Protocol

theorem of_completed {summary : Summary} (completed : summary.status = .completed) :
    Protocol (.ok summary) (.ok summary) [.completed summary] := by
  constructor <;> simp [completed]

theorem of_failed {summary : Summary} {first : Fault} {rest : List Fault}
    (failed : summary.status = .failed) (reported : summary.reported = (first :: rest).length) :
    Protocol (.ok summary) (.error (.reported (first :: rest))) [.failed first] := by
  constructor <;> simp [failed, reported]

theorem of_aborted {fault : Fault} {told : Option Fault} (other : told ≠ some fault) :
    Protocol (.error fault) (.error (.aborted fault)) (told.map Message.failed).toList := by
  cases told with
  | none => constructor <;> simp
  | some first => constructor <;> simp_all [eq_comm]

end Protocol

namespace Engine

theorem run_protocol (engine : Engine) (files : Files) (request : Request) :
    Protocol (engine.execute files request []).1 (engine.evaluate files request)
      (engine.trace files request) := by
  rw [trace_eq, execute_eq, evaluate_eq]
  cases ended : Verdict.firstFatal? (engine.verdicts files request) with
  | some fault =>
    rw [messages_of_fatal ended]
    refine .of_aborted fun told => ?_
    -- A policy that lets a run go on after a fault does not end it there.
    have reported := Verdict.mem_faults_of_mem_taken (List.mem_of_mem_head? told)
    have tolerable := tolerates_of_mem_faults reported
    rw [tolerates_of_firstFatal? ended] at tolerable
    cases tolerable
  | none =>
    rw [messages_of_calm ended]
    cases faults : Verdict.faults (engine.verdicts files request) with
    | nil => exact .of_completed (by simp [summary, Summary.conclude, faults])
    | cons first rest =>
      exact .of_failed (by simp [summary, Summary.conclude, faults])
        (by simp [summary, Summary.conclude, faults])

/-- Over any list of runs on one channel, each run adds its own trace, which belongs to its result
as the protocol says. -/
theorem executeAll_protocol (engine : Engine) (files : Files) (channel : List Message)
    (requests : List Request) :
    (engine.executeAll files channel requests =
      requests.mapIdx fun index request =>
        ((engine.execute files request []).1,
          channel ++ (requests.take (index + 1)).flatMap (engine.trace files))) ∧
    ∀ request,
      Protocol (engine.execute files request []).1 (engine.evaluate files request)
        (engine.trace files request) :=
  ⟨engine.executeAll_eq_mapIdx files channel requests, engine.run_protocol files⟩

/-- A run that a fault ends leaves its channel as it was if and only if it reported no fault
before; else the channel is told the first of these. -/
theorem execute_error_channel {engine : Engine} {files : Files} {request : Request}
    {channel : List Message} {fault : Fault}
    (ended : (engine.execute files request channel).1 = .error fault) :
    ((engine.execute files request channel).2 = channel ↔
      ∀ earlier, .reported earlier ∉ Verdict.taken (engine.verdicts files request)) ∧
    ∀ first rest, Verdict.faults (Verdict.taken (engine.verdicts files request)) = first :: rest →
      (engine.execute files request channel).2 = channel ++ [.failed first] := by
  have fatal := (execute_result_eq_error_iff _ _ _ _ _).mp ended
  simp only [execute_eq, messages_of_fatal fatal, ← Verdict.mem_faults_iff]
  cases Verdict.faults (Verdict.taken (engine.verdicts files request)) with
  | nil => simp
  | cons first rest =>
    refine ⟨⟨fun same => ?_, fun silent => absurd List.mem_cons_self (silent first)⟩, ?_⟩
    · simp at same
    · rintro _ _ ⟨⟩
      rfl

end Engine

def unknownFirst : Mapping where
  pipelines := [("p", [{
    method := .sameFile
    source := none
    target := none
    rules := .sequence [.unrecognized "roughlyEqual", .equal]
    transforms := [] }])]

def unknownFirstEngine : Engine := { mappings := .memory unknownFirst, policy := .failFast }

def differing : Request := { pipeline := "p", source := .string "a", target := .string "b" }

def noFiles : Files where
  lookup _ := .error .notFound

theorem unknownFirst_channel :
    (unknownFirstEngine.execute noFiles differing []).1 =
        .error (.valueMismatch (.index 0) (.string "a") (.string "b")) ∧
      (unknownFirstEngine.execute noFiles differing []).2 =
        [.failed (.unknownRule "roughlyEqual")] :=
  ⟨rfl, (Engine.execute_error_channel rfl).2 _ [] rfl⟩

theorem execute_error_not_silent :
    ¬ ∀ (engine : Engine) (files : Files) (request : Request) (channel : List Message)
      (fault : Fault), (engine.execute files request channel).1 = .error fault →
        (engine.execute files request channel).2 = channel := by
  intro silent
  have same := silent unknownFirstEngine noFiles differing [] _ rfl
  cases same

end Reconcile
