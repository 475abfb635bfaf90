import Reconcile.Document.Reader
import Reconcile.Proofs.Document.Table
import Reconcile.Proofs.Fallible
import Reconcile.Proofs.Json.OneLine

namespace Reconcile

open Text

def Value.ReadsBack (value : Value) : Prop :=
  Json.read .text (Utf8.encode value.jsonChars) = .ok value

theorem Value.readsBack_of_within {value : Value} (formed : value.WellFormed)
    (within : value.Within 127) : value.ReadsBack := by
  have valueRead := Json.read_json formed within .text
  rwa [json, String.toList_ofList] at valueRead

namespace Lines

theorem splitLines_lineFeed {line : List UInt8} (noLineFeed : 10 ∉ line) (rest : List UInt8) :
    splitLines (line ++ 10 :: rest) = (line, true) :: splitLines rest := by
  induction line with
  | nil => simp [splitLines]
  | cons b line ih =>
    rw [List.mem_cons, not_or] at noLineFeed
    rw [List.cons_append, splitLines, if_neg (Ne.symm noLineFeed.1), ih noLineFeed.2]

theorem splitLines_last {line : List UInt8} (noLineFeed : 10 ∉ line) (someByte : line ≠ []) :
    splitLines line = [(line, false)] := by
  induction line with
  | nil => exact absurd rfl someByte
  | cons b line ih =>
    rw [List.mem_cons, not_or] at noLineFeed
    rw [splitLines, if_neg (Ne.symm noLineFeed.1)]
    cases line with
    | nil => rfl
    | cons next line => rw [ih noLineFeed.2 (List.cons_ne_nil _ _)]

def readRow (line : List Char) (ended : Bool) : Except Error (List Value) :=
  (readLine (Utf8.encode line) ended).map Option.toList

theorem readRows_cons (line : List Char) (ended : Bool) (lines : List (List UInt8 × Bool)) :
    readRows ((Utf8.encode line, ended) :: lines) =
      Fallible.inTurn (readRow line ended) (readRows lines) := by
  rw [readRows, readRows, Fallible.inTurn_mapM]
  rfl

theorem lineFeed_not_mem {line : List Char} (oneLine : '\n' ∉ line) : 10 ∉ Utf8.encode line := by
  intro member
  obtain ⟨c, inLine, inChar⟩ := List.mem_flatMap.mp member
  have lineFeed : c = '\n' := Char.toNat_inj.mp (Utf8.toNat_of_mem_encodeChar (by decide) inChar)
  exact oneLine (lineFeed ▸ inLine)

theorem read_line {line : List Char} (oneLine : '\n' ∉ line) (rest : List Char) :
    read (Utf8.encode (line ++ '\n' :: rest)) =
      Fallible.inTurn (readRow line true) (read (Utf8.encode rest)) := by
  have ends : Utf8.encode ('\n' :: rest) = 10 :: Utf8.encode rest := rfl
  rw [read, Utf8.encode_append, ends, splitLines_lineFeed (lineFeed_not_mem oneLine), readRows_cons]
  rfl

theorem read_last {line : List Char} (oneLine : '\n' ∉ line) :
    read (Utf8.encode line) = readRow line false := by
  cases line with
  | nil => rfl
  | cons c line =>
    have someByte : Utf8.encode (c :: line) ≠ [] := by
      obtain ⟨first, others, written, -⟩ := Utf8.encodeChar_eq_cons c
      rw [Utf8.encode_cons, written]
      exact List.cons_ne_nil _ _
    rw [read, splitLines_last (lineFeed_not_mem oneLine) someByte, readRows_cons]
    exact Fallible.inTurn_nil _

theorem readRow_ended {line : List Char} (noReturn : line.getLast? ≠ some '\r') :
    readRow line true = readRow line false := by
  have same : dropReturn line true = dropReturn line false := by simp [dropReturn, noReturn]
  rw [readRow, readRow, readLine, readLine, Utf8.decode_encode]
  simp only [same]

theorem read_append {first : List Char} (noReturn : first.getLast? ≠ some '\r')
    (second : List Char) :
    read (Utf8.encode (first ++ '\n' :: second)) =
      Fallible.inTurn (read (Utf8.encode first)) (read (Utf8.encode second)) := by
  induction length : first.length using Nat.strong_induction_on generalizing first with
  | _ length ih =>
    subst length
    by_cases several : '\n' ∈ first
    · obtain ⟨line, rest, rfl, oneLine⟩ := List.eq_append_cons_of_mem several
      have restEnds : rest.getLast? ≠ some '\r' := by
        cases rest with
        | nil => simp
        | cons c rest => simpa [List.getLast?_append] using noReturn
      have others := ih rest.length (by simp; omega) restEnds rfl
      rw [List.append_assoc, List.cons_append, read_line oneLine, read_line oneLine, others,
        Fallible.inTurn_assoc]
    · rw [read_line several, read_last several, readRow_ended noReturn]

/-- A line that holds a value in compact text, or none and only blanks. -/
inductive IsLine : Option Value → List Char → Prop
  | value (value : Value) : IsLine (some value) value.jsonChars
  | blank {blanks : List Char} (all : ∀ c ∈ blanks, isBlank c = true) (oneLine : '\n' ∉ blanks) :
      IsLine none blanks

/-- A text with the values in its lines, in order; the last line may be without an end. -/
inductive Layout : List Value → List Char → Prop
  | last {row : Option Value} {line : List Char} (isLine : IsLine row line) :
      Layout row.toList line
  | line {row : Option Value} {line : List Char} {values : List Value} {text : List Char}
      (isLine : IsLine row line) (lineEnd : LineEnd) (others : Layout values text) :
      Layout (row.toList ++ values) (line ++ (lineEnd.chars ++ text))

namespace IsLine

variable {row : Option Value} {line : List Char}

theorem oneLine (isLine : IsLine row line) : '\n' ∉ line := by
  cases isLine with
  | value value => exact value.visible_jsonChars.not_mem (by decide)
  | blank _ oneLine => exact oneLine

end IsLine

theorem dropReturn_json (value : Value) (ended : Bool) :
    dropReturn value.jsonChars ended = value.jsonChars := by
  have noReturn : value.jsonChars.getLast? ≠ some '\r' := fun last =>
    value.visible_jsonChars.not_mem (by decide) (List.mem_of_getLast? last)
  simp [dropReturn, noReturn]

theorem dropReturn_returned (text : List Char) : dropReturn (text ++ ['\r']) true = text := by
  simp [dropReturn]

theorem readRow_of_dropReturn {value : Value} (back : value.ReadsBack) {text : List Char}
    {ended : Bool} (dropped : dropReturn text ended = value.jsonChars) :
    readRow text ended = .ok [value] := by
  have notBlank : (trim value.jsonChars).isEmpty = false := by
    obtain ⟨c, rest, written, kind⟩ := value.jsonChars_eq_cons
    have noBlank := Json.isBlank_of_kindOf? kind
    have first := trimRight_append [] noBlank rest
    rw [List.nil_append, List.nil_append] at first
    rw [written, trim, trimLeft, List.dropWhile_cons_of_neg (by simp [noBlank]), first]
    rfl
  have valueRead : Json.read .text (Utf8.encode value.jsonChars) = .ok value := back
  rw [readRow, readLine, Utf8.decode_encode]
  simp only [dropped, notBlank, valueRead, Bool.false_eq_true, reduceIte, Fallible.ok_map]
  rfl

theorem readRow_blank {text : List Char} (all : ∀ c ∈ text, isBlank c = true) (ended : Bool) :
    readRow text ended = .ok [] := by
  have allDropped : ∀ c ∈ dropReturn text ended, isBlank c = true := by
    intro c member
    unfold dropReturn at member
    split at member
    · exact all c ((List.dropLast_sublist text).subset member)
    · exact all c member
  have nothing : trim (dropReturn text ended) = [] := by
    rw [trim, trimLeft, List.dropWhile_eq_nil_iff.mpr allDropped]
    rfl
  rw [readRow, readLine, Utf8.decode_encode]
  simp only [nothing, List.isEmpty_nil, reduceIte, Fallible.ok_map]
  rfl

namespace IsLine

variable {row : Option Value} {line : List Char}

theorem readRow (isLine : IsLine row line) (back : ∀ value ∈ row, value.ReadsBack) (ended : Bool) :
    readRow line ended = .ok row.toList := by
  cases isLine with
  | value value => exact readRow_of_dropReturn (back value rfl) (dropReturn_json value ended)
  | blank all => exact readRow_blank all ended

theorem readRow_returned (isLine : IsLine row line) (back : ∀ value ∈ row, value.ReadsBack) :
    Lines.readRow (line ++ ['\r']) true = .ok row.toList := by
  cases isLine with
  | value value =>
    exact readRow_of_dropReturn (back value rfl) (dropReturn_returned value.jsonChars)
  | blank all =>
    refine readRow_blank (fun c member => ?_) true
    rcases List.mem_append.mp member with inLine | isReturn
    · exact all c inLine
    · rw [List.mem_singleton.mp isReturn]
      rfl

theorem read (isLine : IsLine row line) (back : ∀ value ∈ row, value.ReadsBack)
    (lineEnd : LineEnd) (rest : List Char) :
    Lines.read (Utf8.encode (line ++ (lineEnd.chars ++ rest))) =
      Fallible.inTurn (.ok row.toList) (Lines.read (Utf8.encode rest)) := by
  cases lineEnd with
  | lineFeed =>
    rw [← isLine.readRow back true, ← read_line isLine.oneLine]
    rfl
  | returned =>
    have oneLine : '\n' ∉ line ++ ['\r'] := by simpa using isLine.oneLine
    rw [← isLine.readRow_returned back, ← read_line oneLine, List.append_assoc]
    rfl

end IsLine

theorem Layout.of_ended {values : List Value} {text : List Char}
    (ended : Ended (values.map Value.jsonChars) text) : Layout values text := by
  have all : ∀ value ∈ values, True := fun _ _ => True.intro
  refine Ended.induction_on_items ?none ?last ?line all ended
  case none => exact .last (.blank (by simp) (by simp))
  case last => exact fun value _ => .last (.value value)
  case line => exact fun value lineEnd _ _ _ others => .line (.value value) lineEnd others

theorem read_of_layout {values : List Value} (back : ∀ value ∈ values, value.ReadsBack)
    {text : List Char} (layout : Layout values text) :
    read (Utf8.encode text) = .ok values := by
  induction layout with
  | last isLine =>
    rw [read_last isLine.oneLine]
    exact isLine.readRow (by simpa using back) false
  | line isLine lineEnd _ ih =>
    rw [isLine.read (fun value member => back value (by simp [Option.mem_def.mp member])) lineEnd,
      ih fun value member => back value (List.mem_append_right _ member)]
    rfl

/-- Reading keeps the rows: those of a layout are its values in their order, and those of a text
behind a line feed follow those before it, or the first fault stands for all. -/
theorem rows_kept :
    (∀ values text, (∀ value ∈ values, value.ReadsBack) → Layout values text →
      read (Utf8.encode text) = .ok values ∧
        Format.jsonl.read (Utf8.encode text) = .ok (.array values)) ∧
    ∀ first second, first.getLast? ≠ some '\r' →
      read (Utf8.encode (first ++ '\n' :: second)) =
        Fallible.inTurn (read (Utf8.encode first)) (read (Utf8.encode second)) := by
  refine ⟨fun values text back layout => ?_, fun first second noReturn =>
    read_append noReturn second⟩
  have valuesRead := read_of_layout back layout
  rw [Format.read, valuesRead]
  exact ⟨rfl, rfl⟩

def twoRows : List Value := [.string "a\nb", .null]

def twoRowsText : List Char := "\"a\\nb\"\r\n\u3000\r\r\nnull".toList

theorem rows_kept_twoRows :
    Layout twoRows twoRowsText ∧ read (Utf8.encode twoRowsText) = .ok twoRows ∧
      Format.jsonl.read (Utf8.encode twoRowsText) = .ok (.array twoRows) ∧
      read (Utf8.encode ("null\r\n".toList ++ '\n' :: "\x7b\nnull".toList)) =
        Fallible.inTurn (read (Utf8.encode "null\r\n".toList))
          (read (Utf8.encode "\x7b\nnull".toList)) := by
  have blanks : ∀ c ∈ ['\u3000', '\r'], isBlank c = true := by
    simp only [List.forall_mem_cons]
    exact ⟨rfl, rfl, List.forall_mem_nil _⟩
  have layout : Layout twoRows twoRowsText :=
    .line (.value (.string "a\nb")) .returned
      (.line (.blank blanks (by decide)) .returned (.last (.value .null)))
  have back : ∀ value ∈ twoRows, value.ReadsBack := by
    have string : (Value.string "a\nb").ReadsBack :=
      Value.readsBack_of_within True.intro (Value.within_string _ _)
    have null : Value.null.ReadsBack := rfl
    simp [twoRows, string, null]
  obtain ⟨rowsRead, documentRead⟩ := rows_kept.1 twoRows twoRowsText back layout
  exact ⟨layout, rowsRead, documentRead, rows_kept.2 "null\r\n".toList _ (by decide)⟩

end Lines

end Reconcile
