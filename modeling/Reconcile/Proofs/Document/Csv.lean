import Reconcile.Document.Csv
import Reconcile.Proofs.Document.Table
import Reconcile.Proofs.Fallible

namespace Reconcile.Csv

open Text Table

variable {spot : Spot} {draft : Draft} {input rest : List UInt8}

/-- What is read from a spot on is what is read from another, perhaps at another place. -/
def Reaches (spot : Spot) (draft : Draft) (input : List UInt8) (next : Spot) (nextDraft : Draft)
    (rest : List UInt8) : Prop :=
  ∀ here, ∃ there, recordsFrom spot draft here input = recordsFrom next nextDraft there rest

theorem Reaches.refl (spot : Spot) (draft : Draft) (input : List UInt8) :
    Reaches spot draft input spot draft input := fun here => ⟨here, rfl⟩

theorem Reaches.trans {middle last : Spot} {middleDraft lastDraft : Draft} {between : List UInt8}
    (first : Reaches spot draft input middle middleDraft between)
    (second : Reaches middle middleDraft between last lastDraft rest) :
    Reaches spot draft input last lastDraft rest := by
  intro here
  obtain ⟨there, reached⟩ := first here
  obtain ⟨final, ended⟩ := second there
  exact ⟨final, reached.trans ended⟩

theorem reaches_of_advance {b : UInt8} {next : Spot} {nextDraft : Draft}
    (goes : ∀ here, advance spot draft here b = (next, nextDraft, none)) (rest : List UInt8) :
    Reaches spot draft (b :: rest) next nextDraft rest := by
  intro here
  refine ⟨here.after b, ?_⟩
  rw [recordsFrom]
  simp only [goes]

def Draft.extend (draft : Draft) (bytes : List UInt8) : Draft :=
  { draft with field := bytes.reverse ++ draft.field }

theorem Draft.extend_push (draft : Draft) (b : UInt8) (bytes : List UInt8) :
    (draft.push b).extend bytes = draft.extend (b :: bytes) := by
  simp [Draft.extend, Draft.push]

theorem Draft.extend_extend (draft : Draft) (bytes more : List UInt8) :
    (draft.extend bytes).extend more = draft.extend (bytes ++ more) := by
  simp [Draft.extend]

theorem reaches_bytes {bytes : List UInt8} (noQuote : 34 ∉ bytes) (draft : Draft)
    (rest : List UInt8) :
    Reaches .inQuotes draft (bytes ++ rest) .inQuotes (draft.extend bytes) rest := by
  induction bytes generalizing draft with
  | nil => exact Reaches.refl _ _ _
  | cons b bytes ih =>
    rw [List.mem_cons, not_or] at noQuote
    have goes here : advance .inQuotes draft here b = (.inQuotes, draft.push b, none) :=
      if_neg (Ne.symm noQuote.1)
    rw [← Draft.extend_push]
    exact (reaches_of_advance goes _).trans (ih noQuote.2 _)

theorem reaches_char (c : Char) (draft : Draft) (rest : List UInt8) :
    Reaches .inQuotes draft (Utf8.encode (if c = '"' then ['"', '"'] else [c]) ++ rest) .inQuotes
      (draft.extend (Utf8.encodeChar c)) rest := by
  split
  · rename_i isQuote
    subst isQuote
    have first here : advance .inQuotes draft here 34 = (.behindQuote, draft, none) := rfl
    have second here : advance .behindQuote draft here 34 = (.inQuotes, draft.push 34, none) := rfl
    exact (reaches_of_advance first _).trans (reaches_of_advance second rest)
  · rename_i noQuote
    have bytes : 34 ∉ Utf8.encodeChar c := fun member =>
      noQuote (Char.toNat_inj.mp (Utf8.toNat_of_mem_encodeChar (by decide) member))
    simpa [Utf8.encode] using reaches_bytes bytes draft rest

theorem reaches_chars (text : List Char) (draft : Draft) (rest : List UInt8) :
    Reaches .inQuotes draft
      (Utf8.encode (text.flatMap fun c => if c = '"' then ['"', '"'] else [c]) ++ rest) .inQuotes
      (draft.extend (Utf8.encode text)) rest := by
  induction text generalizing draft with
  | nil => exact Reaches.refl _ _ _
  | cons c text ih =>
    rw [List.flatMap_cons, Utf8.encode_append, List.append_assoc, Utf8.encode_cons,
      ← Draft.extend_extend]
    exact (reaches_char c draft _).trans (ih _)

def Opens (spot : Spot) : Prop :=
  ∀ draft here, advance spot draft here 34 = (.inQuotes, draft, none)

theorem opens_between : Opens .between := fun _ _ => rfl

theorem opens_fieldStart : Opens .fieldStart := fun _ _ => rfl

theorem reaches_quotedField (opens : Opens spot) (field : String) (draft : Draft)
    (rest : List UInt8) :
    Reaches spot draft (Utf8.encode (quotedField field) ++ rest) .behindQuote
      (draft.extend (Utf8.encode field.toList)) rest := by
  have bytes : Utf8.encode (quotedField field) ++ rest =
      34 :: (Utf8.encode (field.toList.flatMap fun c => if c = '"' then ['"', '"'] else [c]) ++
        34 :: rest) := by
    rw [quotedField, List.cons_append, Json.encode_cons (by decide), Utf8.encode_append,
      List.cons_append, List.append_assoc]
    rfl
  have closes here : advance .inQuotes (draft.extend (Utf8.encode field.toList)) here 34 =
      (.behindQuote, draft.extend (Utf8.encode field.toList), none) := rfl
  rw [bytes]
  exact ((reaches_of_advance (opens draft) _).trans (reaches_chars _ _ _)).trans
    (reaches_of_advance closes _)

theorem encode_quotedRecord_cons (field next : String) (fields : List String)
    (rest : List UInt8) :
    Utf8.encode (quotedRecord (field :: next :: fields)) ++ rest =
      Utf8.encode (quotedField field) ++
        44 :: (Utf8.encode (quotedRecord (next :: fields)) ++ rest) := by
  rw [quotedRecord, List.map_cons, List.map_cons, join_cons_cons, Utf8.encode_append,
    Json.encode_cons (by decide), List.append_assoc]
  rfl

theorem reaches_record (opens : Opens spot) {fields : List String} (someField : fields ≠ [])
    {draft : Draft} (fresh : draft.field = []) (rest : List UInt8) :
    ∃ last, Reaches spot draft (Utf8.encode (quotedRecord fields) ++ rest) .behindQuote last rest ∧
      last.record.fields = draft.fields.reverse ++ fields.map (Utf8.encode ·.toList) := by
  induction fields generalizing spot draft with
  | nil => exact absurd rfl someField
  | cons field fields ih =>
    let last := draft.extend (Utf8.encode field.toList)
    have first := reaches_quotedField opens field draft
    cases fields with
    | nil =>
      refine ⟨last, ?_, ?_⟩
      · simpa [quotedRecord, join] using first rest
      · simp [last, Draft.record, Draft.endField, Draft.extend, fresh]
    | cons next fields =>
      have comma here :
          advance .behindQuote last here 44 = (.fieldStart, last.endField, none) := rfl
      obtain ⟨final, reached, whole⟩ := ih opens_fieldStart (List.cons_ne_nil _ _)
        (show last.endField.field = [] from rfl)
      refine ⟨final, ?_, ?_⟩
      · rw [encode_quotedRecord_cons]
        exact ((first _).trans (reaches_of_advance comma _)).trans reached
      · simp [whole, last, Draft.endField, Draft.extend, fresh]

theorem recordsFrom_lineEnd (last : Draft) (here : Place) (lineEnd : LineEnd) (rest : List UInt8) :
    ∃ place there, recordsFrom .behindQuote last here (Utf8.encode lineEnd.chars ++ rest) =
      last.record :: recordsFrom .between { place } there rest := by
  cases lineEnd with
  | lineFeed => exact ⟨here.after 10, here.after 10, rfl⟩
  | returned => exact ⟨here.after 13, (here.after 13).after 10, rfl⟩

theorem fields_recordsFrom {records : List (List String)}
    (someField : ∀ fields ∈ records, fields ≠ []) {text : List Char}
    (ended : Ended (records.map quotedRecord) text) (place here : Place) :
    (recordsFrom .between { place } here (Utf8.encode text)).map (·.fields) =
      records.map (·.map (Utf8.encode ·.toList)) := by
  have fresh (place : Place) : ({ place } : Draft).field = [] := rfl
  refine Ended.induction_on_items (motive := fun records text => ∀ place here,
    (recordsFrom .between { place } here (Utf8.encode text)).map (·.fields) =
      records.map (·.map (Utf8.encode ·.toList))) ?none ?last ?line someField ended place here
  case none => exact fun _ _ => rfl
  case last =>
    intro fields some place here
    obtain ⟨last, reached, fieldsRead⟩ := reaches_record opens_between some (fresh place) []
    obtain ⟨there, reached⟩ := reached here
    rw [List.append_nil] at reached
    rw [reached]
    simpa [recordsFrom] using fieldsRead
  case line =>
    intro fields lineEnd others text some ih place here
    obtain ⟨last, reached, fieldsRead⟩ := reaches_record opens_between some (fresh place) _
    obtain ⟨there, reached⟩ := reached here
    obtain ⟨nextPlace, next, closed⟩ := recordsFrom_lineEnd last there lineEnd _
    rw [Utf8.encode_append, Utf8.encode_append, reached, closed, List.map_cons, fieldsRead,
      ih nextPlace next]
    rfl

theorem texts_of_fields {record : RawRecord} {texts : List String}
    (fields : record.fields = texts.map (Utf8.encode ·.toList)) (number : Nat) :
    record.texts number = .ok texts := by
  rw [RawRecord.texts, fields, List.zipIdx_map, List.mapM_map]
  rw [Fallible.mapM_eq_ok_of_forall Prod.fst]
  · rw [List.zipIdx_map_fst]
  · intro field _
    simp [Utf8.decode_encode]

section

variable {table : Table}

theorem row_of_fields {row : List String} (same : row.length = table.header.length)
    {record : RawRecord} (fields : record.fields = row.map (Utf8.encode ·.toList)) (number : Nat) :
    Csv.row table.header table.header.length number record = .ok (table.rowValue row) := by
  have length : record.fields.length = table.header.length := by rw [fields, List.length_map, same]
  rw [Csv.row, if_neg (not_not_intro length), texts_of_fields fields]
  exact congrArg Except.ok (ofMembers_members same)

theorem rows_of_fields {rows : List (List String)}
    (even : ∀ row ∈ rows, row.length = table.header.length) {records : List RawRecord}
    (fields : records.map (·.fields) = rows.map (·.map (Utf8.encode ·.toList))) (start : Nat) :
    ((records.zipIdx start).mapM fun (record, number) =>
      Csv.row table.header table.header.length number record) =
      .ok (rows.map table.rowValue) := by
  induction rows generalizing records start with
  | nil =>
    rw [List.map_nil, List.map_eq_nil_iff] at fields
    rw [fields]
    rfl
  | cons row rows ih =>
    obtain ⟨record, others, rfl, first, rest⟩ := List.map_eq_cons_iff.mp fields
    rw [List.forall_mem_cons] at even
    simp only [List.zipIdx_cons, List.mapM_cons, row_of_fields even.1 first, ih even.2 rest,
      Fallible.ok_bind]
    rfl

theorem quotedRecord_eq_cons {fields : List String} (someField : fields ≠ []) :
    ∃ rest, quotedRecord fields = '"' :: rest := by
  match fields with
  | [] => exact absurd rfl someField
  | [field] => exact ⟨_, rfl⟩
  | field :: next :: fields =>
    rw [quotedRecord, List.map_cons, List.map_cons, join_cons_cons]
    exact ⟨_, rfl⟩

theorem records_of_isCsv {text : List Char} (isCsv : table.IsCsv text) :
    (records (Utf8.encode text)).map (·.fields) =
      (table.header :: table.rows).map (·.map (Utf8.encode ·.toList)) := by
  have someField : ∀ fields ∈ table.header :: table.rows, fields ≠ [] := by
    rw [List.forall_mem_cons]
    refine ⟨table.someColumn, fun row member noField => table.someColumn ?_⟩
    rw [← List.length_eq_zero_iff, ← table.even row member, noField, List.length_nil]
  -- The text begins with a quote, so no byte order mark is taken off its front.
  have noMark : records (Utf8.encode text) =
      recordsFrom .between ⟨⟨1, 0⟩, [], []⟩ ⟨1, 0⟩ (Utf8.encode text) := by
    obtain ⟨rest, rfl⟩ := isCsv.eq_append
    obtain ⟨others, written⟩ := quotedRecord_eq_cons table.someColumn
    rw [written, List.cons_append, Json.encode_cons (by decide)]
    rfl
  rw [noMark]
  exact fields_recordsFrom someField isCsv _ _

theorem read_of_isCsv {text : List Char} (isCsv : table.IsCsv text) :
    Csv.read (Utf8.encode text) = .ok table.value := by
  obtain ⟨header, rows, found, headerFields, rowFields⟩ :=
    List.map_eq_cons_iff.mp (records_of_isCsv isCsv)
  have length : header.fields.length = table.header.length := by rw [headerFields, List.length_map]
  rw [Csv.read, found]
  simp only [texts_of_fields headerFields, length, rows_of_fields table.even rowFields,
    Fallible.ok_bind]
  rfl

end

end Reconcile.Csv
