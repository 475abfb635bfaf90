import Reconcile.Proofs.Verdict

namespace Reconcile

namespace Reporter

def ofFaults (channel : List Message) (faults : List Fault) : Reporter where
  channel := channel ++ (faults.head?.map Message.failed).toList
  settled := !faults.isEmpty
  reported := faults

theorem ofFaults_nil (channel : List Message) : ofFaults channel [] = { channel } := by
  simp [ofFaults]

theorem ofFaults_fail (channel : List Message) (faults : List Fault) (fault : Fault) :
    (ofFaults channel faults).fail fault = ofFaults channel (faults ++ [fault]) := by
  cases faults <;> simp [ofFaults, fail, send]

theorem foldl_fail (channel : List Message) (before faults : List Fault) :
    faults.foldl fail (ofFaults channel before) = ofFaults channel (before ++ faults) := by
  induction faults generalizing before with
  | nil => simp
  | cons fault faults ih => simp [ofFaults_fail, ih]

end Reporter

namespace Summary

def add (summary : Summary) : Verdict → Summary
  | .skipped => { summary with skipped := summary.skipped + 1 }
  | .passed pairs =>
    { summary with rules := summary.rules + 1, compared := summary.compared + pairs }
  | .reported _ => { summary with rules := summary.rules + 1 }
  | .fatal _ => summary

def conclude (summary : Summary) (faults : List Fault) : Summary :=
  { summary with
    status := if faults.isEmpty then .completed else .failed
    reported := faults.length }

end Summary

namespace Progress

theorem take_eq (progress : Progress) (verdict : Verdict) :
    progress.take verdict =
      match verdict.fatal? with
      | some fault => .error ⟨fault, progress.reporter⟩
      | none => .ok ⟨progress.summary.add verdict,
          verdict.reported?.toList.foldl Reporter.fail progress.reporter⟩ := by
  cases verdict <;> rfl

theorem foldlM_take (progress : Progress) (verdicts : List Verdict) :
    verdicts.foldlM take progress =
      match Verdict.firstFatal? verdicts with
      | some fault => .error
          ⟨fault, (Verdict.faults (Verdict.taken verdicts)).foldl Reporter.fail progress.reporter⟩
      | none => .ok ⟨verdicts.foldl Summary.add progress.summary,
          (Verdict.faults verdicts).foldl Reporter.fail progress.reporter⟩ := by
  induction verdicts generalizing progress with
  | nil => rfl
  | cons verdict verdicts ih =>
    rw [List.foldlM_cons, take_eq]
    cases fatal : verdict.fatal? with
    | some fault =>
      simp [Verdict.firstFatal?, Verdict.taken, fatal, Bind.bind, Except.bind]
    | none =>
      simp only [Bind.bind, Except.bind, ih]
      cases reported : verdict.reported? <;>
        simp [Verdict.firstFatal?, Verdict.taken, Verdict.faults, fatal, reported]

theorem finish_ofFaults (summary : Summary) (channel : List Message) (faults : List Fault) :
    finish ⟨summary, .ofFaults channel faults⟩ =
      ⟨summary.conclude faults,
        if faults.isEmpty then
          { channel := channel ++ [.completed (summary.conclude faults)], settled := true }
        else .ofFaults channel faults⟩ := by
  cases faults <;>
    simp [finish, Reporter.ofFaults, Reporter.complete, Reporter.send, Summary.conclude]

end Progress

namespace Engine

/-- The summary of a run that no fault ends. -/
def summary (engine : Engine) (files : Files) (request : Request) : Summary :=
  let directives := match engine.mappings.directives files request.pipeline with
    | .ok directives => directives.length
    | .error _ => 0
  let verdicts := engine.verdicts files request
  (verdicts.foldl Summary.add { pipeline := request.pipeline, directives }).conclude
    (Verdict.faults verdicts)

def messages (engine : Engine) (files : Files) (request : Request) : List Message :=
  let verdicts := engine.verdicts files request
  match Verdict.faults (Verdict.taken verdicts), Verdict.firstFatal? verdicts with
  | first :: _, _ => [.failed first]
  | [], none => [.completed (engine.summary files request)]
  | [], some _ => []

theorem messages_of_calm {engine : Engine} {files : Files} {request : Request}
    (calm : Verdict.firstFatal? (engine.verdicts files request) = none) :
    engine.messages files request =
      match Verdict.faults (engine.verdicts files request) with
      | first :: _ => [.failed first]
      | [] => [.completed (engine.summary files request)] := by
  simp only [messages, calm, Verdict.taken_of_calm calm]
  cases Verdict.faults (engine.verdicts files request) <;> rfl

theorem messages_of_fatal {engine : Engine} {files : Files} {request : Request} {fault : Fault}
    (fatal : Verdict.firstFatal? (engine.verdicts files request) = some fault) :
    engine.messages files request =
      ((Verdict.faults (Verdict.taken (engine.verdicts files request))).head?.map
        Message.failed).toList := by
  simp only [messages, fatal]
  cases Verdict.faults (Verdict.taken (engine.verdicts files request)) <;> rfl

theorem run_defined {engine : Engine} {files : Files} {request : Request}
    {directives : List Directive} (channel : List Message)
    (defined : engine.mappings.directives files request.pipeline = .ok directives) :
    engine.run files request { channel } =
      ((engine.verdicts files request).foldlM Progress.take
        ⟨{ pipeline := request.pipeline, directives := directives.length },
          .ofFaults channel []⟩).map Progress.finish := by
  simp only [run, verdicts, defined, runDirectives_eq, Reporter.ofFaults_nil]
  rfl

theorem run_of_fatal {engine : Engine} {files : Files} {request : Request} {fault : Fault}
    (channel : List Message)
    (fatal : Verdict.firstFatal? (engine.verdicts files request) = some fault) :
    engine.run files request { channel } =
      .error ⟨fault,
        .ofFaults channel (Verdict.faults (Verdict.taken (engine.verdicts files request)))⟩ := by
  cases defined : engine.mappings.directives files request.pipeline with
  | ok directives =>
    rw [run_defined channel defined, Progress.foldlM_take, fatal]
    simp [Reporter.foldl_fail, Except.map]
  | error cause =>
    have single : engine.verdicts files request = [.fatal (.configuration cause)] := by
      simp only [verdicts, defined]
    rw [single] at fatal ⊢
    cases fatal
    simp [run, defined, Except.mapError, Bind.bind, Except.bind, Reporter.ofFaults, Verdict.taken,
      Verdict.fatal?]

theorem run_of_calm {engine : Engine} {files : Files} {request : Request}
    (channel : List Message)
    (calm : Verdict.firstFatal? (engine.verdicts files request) = none) :
    ∃ progress, engine.run files request { channel } = .ok progress ∧
      progress.summary = engine.summary files request ∧
      progress.reporter.reported = Verdict.faults (engine.verdicts files request) ∧
      progress.reporter.channel = channel ++ engine.messages files request := by
  cases defined : engine.mappings.directives files request.pipeline with
  | ok directives =>
    rw [run_defined channel defined, Progress.foldlM_take, calm, messages_of_calm calm]
    refine ⟨_, rfl, ?_⟩
    simp only [Reporter.foldl_fail, List.nil_append, Progress.finish_ofFaults, summary, defined]
    cases Verdict.faults (engine.verdicts files request) <;> simp [Reporter.ofFaults]
  | error cause => simp [verdicts, defined, Verdict.firstFatal?, Verdict.fatal?] at calm

theorem evaluate_eq (engine : Engine) (files : Files) (request : Request) :
    engine.evaluate files request =
      match Verdict.firstFatal? (engine.verdicts files request) with
      | some fault => .error (.aborted fault)
      | none =>
        if (Verdict.faults (engine.verdicts files request)).isEmpty then
          .ok (engine.summary files request)
        else .error (.reported (Verdict.faults (engine.verdicts files request))) := by
  cases fatal : Verdict.firstFatal? (engine.verdicts files request) with
  | some fault => simp only [evaluate, run_of_fatal [] fatal]
  | none =>
    obtain ⟨progress, ran, summary, reported, -⟩ := run_of_calm [] fatal
    simp only [evaluate, ran, summary, reported]

theorem evaluate_eq_ok_iff (engine : Engine) (files : Files) (request : Request)
    (summary : Summary) :
    engine.evaluate files request = .ok summary ↔
      Verdict.firstFatal? (engine.verdicts files request) = none ∧
        Verdict.faults (engine.verdicts files request) = [] ∧
        engine.summary files request = summary := by
  rw [evaluate_eq]
  cases Verdict.firstFatal? (engine.verdicts files request) <;>
    cases Verdict.faults (engine.verdicts files request) <;> simp

theorem evaluate_eq_reported_iff (engine : Engine) (files : Files) (request : Request)
    (faults : List Fault) :
    engine.evaluate files request = .error (.reported faults) ↔
      Verdict.firstFatal? (engine.verdicts files request) = none ∧ faults ≠ [] ∧
        Verdict.faults (engine.verdicts files request) = faults := by
  rw [evaluate_eq]
  cases Verdict.firstFatal? (engine.verdicts files request) <;>
    cases Verdict.faults (engine.verdicts files request) <;> cases faults <;> simp

theorem evaluate_eq_aborted_iff (engine : Engine) (files : Files) (request : Request)
    (fault : Fault) :
    engine.evaluate files request = .error (.aborted fault) ↔
      Verdict.firstFatal? (engine.verdicts files request) = some fault := by
  rw [evaluate_eq]
  cases Verdict.firstFatal? (engine.verdicts files request) <;>
    cases Verdict.faults (engine.verdicts files request) <;> simp

theorem tolerates_of_reported {engine : Engine} {files : Files} {request : Request}
    {faults : List Fault} (ended : engine.evaluate files request = .error (.reported faults)) :
    faults ≠ [] ∧ ∀ fault ∈ faults, engine.policy.tolerates fault = true := by
  obtain ⟨-, some, rfl⟩ := (evaluate_eq_reported_iff _ _ _ _).mp ended
  exact ⟨some, fun _ member => tolerates_of_mem_faults member⟩

theorem tolerates_of_aborted {engine : Engine} {files : Files} {request : Request} {fault : Fault}
    (ended : engine.evaluate files request = .error (.aborted fault)) :
    engine.policy.tolerates fault = false :=
  tolerates_of_firstFatal? ((evaluate_eq_aborted_iff _ _ _ _).mp ended)

theorem execute_eq (engine : Engine) (files : Files) (request : Request)
    (channel : List Message) :
    engine.execute files request channel =
      (match Verdict.firstFatal? (engine.verdicts files request) with
        | some fault => .error fault
        | none => .ok (engine.summary files request),
      channel ++ engine.messages files request) := by
  cases fatal : Verdict.firstFatal? (engine.verdicts files request) with
  | some fault =>
    simp only [execute, run_of_fatal channel fatal, messages_of_fatal fatal, Reporter.ofFaults]
  | none =>
    obtain ⟨progress, ran, summary, -, sent⟩ := run_of_calm channel fatal
    simp only [execute, ran, summary, sent]

theorem execute_result_eq_ok_iff (engine : Engine) (files : Files) (request : Request)
    (channel : List Message) (summary : Summary) :
    (engine.execute files request channel).1 = .ok summary ↔
      Verdict.firstFatal? (engine.verdicts files request) = none ∧
        engine.summary files request = summary := by
  rw [execute_eq]
  cases Verdict.firstFatal? (engine.verdicts files request) <;> simp

theorem execute_result_eq_error_iff (engine : Engine) (files : Files) (request : Request)
    (channel : List Message) (fault : Fault) :
    (engine.execute files request channel).1 = .error fault ↔
      Verdict.firstFatal? (engine.verdicts files request) = some fault := by
  rw [execute_eq]
  cases Verdict.firstFatal? (engine.verdicts files request) <;> simp

/-- Two engines that give a request the same run: one evaluation, and on every channel one result
and the same messages. -/
structure SameRun (first second : Engine) (files : Files) (request : Request) : Prop where
  evaluate_eq : first.evaluate files request = second.evaluate files request
  execute_eq : ∀ channel,
    first.execute files request channel = second.execute files request channel

theorem SameRun.of_verdicts {first second : Engine} {files : Files} {request : Request}
    (verdicts : first.verdicts files request = second.verdicts files request)
    (summary : first.summary files request = second.summary files request) :
    SameRun first second files request where
  evaluate_eq := by rw [Engine.evaluate_eq, Engine.evaluate_eq, verdicts, summary]
  execute_eq channel := by
    rw [Engine.execute_eq, Engine.execute_eq, messages, messages, verdicts, summary]

end Engine

end Reconcile
