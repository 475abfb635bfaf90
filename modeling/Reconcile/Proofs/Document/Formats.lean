import Reconcile.Proofs.Document.Csv
import Reconcile.Proofs.Document.Lines

namespace Reconcile.Table

open Text

variable {table : Table}

theorem read_csv {text : List Char} (isCsv : table.IsCsv text) :
    Format.csv.read (Utf8.encode text) = .ok table.value := by
  rw [Format.read, Csv.read_of_isCsv isCsv]
  rfl

theorem readsBack_rowValue {row : List String} (member : row ∈ table.rows) :
    (table.rowValue row).ReadsBack :=
  Value.readsBack_of_within (wellFormed_rowValue (table.even row member))
    ((within_rowValue row).mono (by decide))

theorem read_jsonLines {text : List Char} (isJsonLines : table.IsJsonLines text) :
    Format.jsonl.read (Utf8.encode text) = .ok table.value := by
  have back : ∀ value ∈ table.rows.map table.rowValue, value.ReadsBack := by
    rw [List.forall_mem_map]
    exact fun row member => readsBack_rowValue member
  have lines : Ended ((table.rows.map table.rowValue).map Value.jsonChars) text := by
    rw [List.map_map]
    exact isJsonLines
  rw [Format.read, Lines.read_of_layout back (.of_ended lines)]
  rfl

theorem read_json (table : Table) :
    Format.json.read (Utf8.encode table.value.json.toList) = .ok table.value := by
  rw [Format.read, Json.read_json wellFormed_value (within_value.mono (by decide))]
  rfl

/-- The three texts of a table are read as one document, which has all cells under their columns. -/
theorem formats_agree (table : Table) {csv lines : List Char} (isCsv : table.IsCsv csv)
    (isJsonLines : table.IsJsonLines lines) :
    Format.csv.read (Utf8.encode csv) = .ok table.value ∧
      Format.jsonl.read (Utf8.encode lines) = .ok table.value ∧
      Format.json.read (Utf8.encode table.value.json.toList) = .ok table.value ∧
      ∀ row ∈ table.rows, (table.members row).map (·.1) = table.header ∧
        (table.members row).map (·.2) = row.map .string := by
  refine ⟨read_csv isCsv, read_jsonLines isJsonLines, read_json table, fun row member => ?_⟩
  have same := table.even row member
  exact ⟨names_members same, cells_members same⟩

def oneColumn : Table where
  header := ["n"]
  rows := [[","], ["\"\r\n"], [""], [" "]]
  someColumn := by decide
  distinct := by decide
  even := by decide

def oneColumnCsv : List Char :=
  "\"n\"\r\n\",\"\n\"\"\"\r\n\"\n\"\"\r\n\" \"".toList

def oneColumnLines : List Char :=
  ("\x7b\"n\":\",\"\x7d\n\x7b\"n\":\"\\\"\\r\\n\"\x7d\r\n" ++
    "\x7b\"n\":\"\"\x7d\n\x7b\"n\":\" \"\x7d\n").toList

theorem formats_agree_oneColumn :
    oneColumn.IsCsv oneColumnCsv ∧ oneColumn.IsJsonLines oneColumnLines ∧
      Format.csv.read (Utf8.encode oneColumnCsv) = .ok oneColumn.value ∧
      Format.jsonl.read (Utf8.encode oneColumnLines) = .ok oneColumn.value := by
  have isCsv : oneColumn.IsCsv oneColumnCsv :=
    .line _ .returned (.line _ .lineFeed (.line _ .lineFeed (.line _ .returned (.last _))))
  have isJsonLines : oneColumn.IsJsonLines oneColumnLines :=
    .line _ .lineFeed (.line _ .returned (.line _ .lineFeed (.line _ .lineFeed .none)))
  obtain ⟨csvRead, linesRead, -⟩ := formats_agree oneColumn isCsv isJsonLines
  exact ⟨isCsv, isJsonLines, csvRead, linesRead⟩

end Reconcile.Table
