import Reconcile.Proofs.Json.ReadBack

namespace Reconcile

open Text

inductive LineEnd
  | lineFeed
  | returned

def LineEnd.chars : LineEnd → List Char
  | lineFeed => ['\n']
  | returned => ['\r', '\n']

/-- Lines one after another, each with an end behind it; the last may be without. -/
inductive Ended : List (List Char) → List Char → Prop
  | none : Ended [] []
  | last (line : List Char) : Ended [line] line
  | line {lines : List (List Char)} {text : List Char} (line : List Char) (lineEnd : LineEnd)
      (ended : Ended lines text) : Ended (line :: lines) (line ++ (lineEnd.chars ++ text))

theorem Ended.eq_append {line : List Char} {lines : List (List Char)} {text : List Char}
    (ended : Ended (line :: lines) text) : ∃ rest, text = line ++ rest := by
  cases ended with
  | last => exact ⟨[], (List.append_nil _).symm⟩
  | line _ lineEnd ended => exact ⟨_, rfl⟩

theorem Ended.induction_on_items {α : Type} {write : α → List Char} {good : α → Prop}
    {motive : List α → List Char → Prop} (none : motive [] [])
    (last : ∀ item, good item → motive [item] (write item))
    (line : ∀ item lineEnd items text, good item → motive items text →
      motive (item :: items) (write item ++ (LineEnd.chars lineEnd ++ text)))
    {items : List α} (all : ∀ item ∈ items, good item) {text : List Char}
    (ended : Ended (items.map write) text) : motive items text := by
  generalize written : items.map write = lines at ended
  induction ended generalizing items with
  | none =>
    rw [List.map_eq_nil_iff] at written
    exact written ▸ none
  | last _ =>
    obtain ⟨item, others, rfl, rfl, noOthers⟩ := List.map_eq_cons_iff.mp written
    rw [List.map_eq_nil_iff] at noOthers
    subst noOthers
    exact last item (all item List.mem_cons_self)
  | line _ lineEnd _ ih =>
    obtain ⟨item, others, rfl, rfl, rfl⟩ := List.map_eq_cons_iff.mp written
    rw [List.forall_mem_cons] at all
    exact line item lineEnd others _ all.1 (ih all.2 rfl)

structure Table where
  header : List String
  rows : List (List String)
  someColumn : header ≠ []
  distinct : header.Nodup
  even : ∀ row ∈ rows, row.length = header.length

namespace Table

variable (table : Table)

def members (row : List String) : List (String × Value) :=
  (table.header.zip row).map fun (name, cell) => (name, .string cell)

def rowValue (row : List String) : Value := .object (table.members row)

def value : Value := .array (table.rows.map table.rowValue)

def quotedField (field : String) : List Char :=
  '"' :: (field.toList.flatMap fun c => if c = '"' then ['"', '"'] else [c]) ++ ['"']

def quotedRecord (fields : List String) : List Char := join ',' (fields.map quotedField)

def IsCsv (text : List Char) : Prop := Ended ((table.header :: table.rows).map quotedRecord) text

def IsJsonLines (text : List Char) : Prop :=
  Ended (table.rows.map fun row => (table.rowValue row).jsonChars) text

variable {table} {row : List String}

theorem names_members (same : row.length = table.header.length) :
    (table.members row).map (·.1) = table.header := by
  rw [members, List.map_map]
  exact List.map_fst_zip (Nat.le_of_eq same.symm)

theorem cells_members (same : row.length = table.header.length) :
    (table.members row).map (·.2) = row.map .string := by
  have cells : (table.header.zip row).map Prod.snd = row :=
    List.map_snd_zip (Nat.le_of_eq same)
  rw [← cells, List.map_map, cells, members, List.map_map]
  rfl

theorem wellFormed_rowValue (same : row.length = table.header.length) :
    (table.rowValue row).WellFormed := by
  rw [rowValue, Value.wellFormed_object_iff, names_members same, members, List.forall_mem_map]
  exact ⟨table.distinct, fun _ _ => True.intro⟩

theorem within_rowValue (row : List String) : (table.rowValue row).Within 1 := by
  rw [rowValue, Value.within_object_iff, members, List.forall_mem_map]
  exact fun pair _ => Value.within_string pair.2 0

theorem wellFormed_value : table.value.WellFormed := by
  rw [value, Value.wellFormed_array_iff, List.forall_mem_map]
  exact fun row member => wellFormed_rowValue (table.even row member)

theorem within_value : table.value.Within 2 := by
  simp [value, within_rowValue]

theorem ofMembers_members (same : row.length = table.header.length) :
    Value.ofMembers (table.members row) = table.rowValue row := by
  apply Value.ofMembers_of_nodup
  rw [names_members same]
  exact table.distinct

end Table

end Reconcile
