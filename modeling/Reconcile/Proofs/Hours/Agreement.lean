import Reconcile.Command.Hours
import Reconcile.Proofs.Agreement
import Reconcile.Proofs.Json.ReadBack

namespace Reconcile

open Text

theorem plain_eq_jsonChars {value : Value} (nested : value.kind = .array ∨ value.kind = .object) :
    value.plain = value.jsonChars := by
  cases value with
  | array items => rfl
  | object members => rfl
  | _ => simp [Value.kind] at nested

theorem trimmed_agree_json_iff {value target : Value} (whole : value.FloatFree)
    (nested : value.kind = .array ∨ value.kind = .object)
    (targetNested : target.kind = .array ∨ target.kind = .object) :
    Strictness.trimmed.Agree (.string value.json) target ↔ target = value := by
  have source : (Value.string value.json).plain = value.jsonChars := String.toList_ofList
  rw [Strictness.Agree, source, plain_eq_jsonChars targetNested, trim_jsonChars nested,
    trim_jsonChars targetNested]
  constructor
  · exact fun same => Value.jsonChars_injective whole same.symm
  · rintro rfl
    rfl

theorem compareItems_json_iff {value target : Value} (whole : value.FloatFree)
    (nested : value.kind = .array ∨ value.kind = .object)
    (targetNested : target.kind = .array ∨ target.kind = .object) :
    (∃ count, compareItems .trimmed [.string value.json] [target] = .ok count) ↔
      target = value := by
  rw [← trimmed_agree_json_iff whole nested targetNested]
  simp only [compareItems_eq_ok_iff]
  constructor
  · rintro ⟨-, agree, -⟩
    exact agree 0 _ _ rfl rfl
  · intro agree
    refine ⟨1, fun index source target atSource atTarget => ?_, rfl⟩
    cases index with
    | zero =>
      cases atSource
      cases atTarget
      exact agree
    | succ index => cases atSource

namespace Hours

theorem within_scheduleValue (records : List Record) : (scheduleValue records).Within 2 := by
  simp [scheduleValue, Record.value]

theorem wellFormed_scheduleValue (records : List Record) :
    (scheduleValue records).WellFormed := by
  rw [scheduleValue, Value.wellFormed_array_iff, List.forall_mem_map]
  intro record listed
  simp [Record.value, Value.wellFormed_object_iff, Value.WellFormed]

structure StandsFor (json : String) (records : List Record) (payload : Value) : Prop where
  inOrder : payload = .array (records.map fun record =>
    .object [("day", .string record.day.abbreviation), ("open", .string record.opening),
      ("close", .string record.closing)])
  isJson : json = payload.json
  readBack : ∀ kind, Json.read kind (Utf8.encode json.toList) = .ok payload
  agrees_iff : ∀ target : Value, target.kind = .array ∨ target.kind = .object →
    ((∃ count, compareItems .trimmed [.string json] [target] = .ok count) ↔ target = payload)

theorem standsFor_scheduleValue (records : List Record) :
    StandsFor (scheduleValue records).json records (scheduleValue records) where
  inOrder := rfl
  isJson := rfl
  readBack :=
    Json.read_json (wellFormed_scheduleValue records)
      ((within_scheduleValue records).mono (by decide))
  agrees_iff target nested :=
    compareItems_json_iff (within_scheduleValue records).whole (.inl rfl) nested

theorem expand_eq (text : String) :
    expand text = (parseSchedule text).map fun records => (scheduleValue records).json := by
  rw [expand, expandWith]
  cases parseSchedule text <;> rfl

theorem expandWith_eq_error_iff (serializer : Serializer) (text : String)
    (fault : ExpansionError serializer) :
    expandWith serializer text = .error fault ↔
      (∃ cause, parseSchedule text = .error cause ∧ fault = .schedule cause) ∨
      ∃ records cause, parseSchedule text = .ok records ∧
        serializer.text (scheduleValue records) = .error cause ∧ fault = .serialize cause := by
  rw [expandWith]
  cases parseSchedule text with
  | error cause => simp [Except.mapError, eq_comm]
  | ok records =>
    cases written : serializer.text (scheduleValue records) <;>
      simp [written, Except.mapError, eq_comm]

/-- The expansion of a text and the response of the command to it tell the same. -/
structure CommandAgrees (text : String) : Prop where
  success : (∃ json, expand text = .ok json) ↔ (Command.expandHours text).exit.code = 0
  expanded : ∀ json, expand text = .ok json →
    ∃ records, parseSchedule text = .ok records ∧
      StandsFor json records (Command.expandHours text).payload
  failed : ∀ cause, expand text = .error cause →
    (Command.expandHours text).exit.code = 3 ∧ (Command.expandHours text).payload =
      .object [Command.errorMember, ("message", .string cause.message)]

theorem expand_agrees_with_command (text : String) : CommandAgrees text := by
  cases parsed : parseSchedule text with
  | ok records =>
    have expansion : expand text = .ok (scheduleValue records).json := by
      rw [expand_eq, parsed, Except.map]
    have response : Command.expandHours text =
        { exit := .success, payload := scheduleValue records } := by
      rw [Command.expandHours, parsed]
    constructor <;> rw [expansion, response]
    · exact ⟨fun _ => rfl, fun _ => ⟨_, rfl⟩⟩
    · rintro json ⟨⟩
      exact ⟨records, parsed, standsFor_scheduleValue records⟩
    · rintro cause ⟨⟩
  | error cause =>
    have expansion : expand text = .error cause := by
      rw [expand_eq, parsed, Except.map]
    have response : Command.expandHours text = .inputError cause.message := by
      rw [Command.expandHours, parsed]
    constructor <;> rw [expansion, response]
    · constructor
      · rintro ⟨json, ⟨⟩⟩
      · intro code
        cases code
    · rintro json ⟨⟩
    · rintro cause ⟨⟩
      exact ⟨rfl, rfl⟩

end Hours

end Reconcile
