import Reconcile.Proofs.Json.Number
import Reconcile.Proofs.Query.Written

namespace Reconcile

namespace Query

open Text

@[simp] theorem skipSpaces_cons {c : Char} (other : c ≠ ' ') (rest : List Char) :
    skipSpaces (c :: rest) = c :: rest := by
  simp [skipSpaces, other]

@[simp] theorem skipSpaces_space (rest : List Char) :
    skipSpaces (' ' :: rest) = skipSpaces rest := by
  simp [skipSpaces]

@[simp] theorem expect_cons (c : Char) (rest : List Char) : expect c (c :: rest) = .ok rest := by
  simp [expect]

theorem readQuoted_cons {c : Char} (noEscape : c ≠ '\\') (quote : Char) (before rest : List Char) :
    readQuoted quote before (c :: rest) =
      if c = quote then .ok (.ofList before.reverse, rest)
      else readQuoted quote (c :: before) rest := by
  cases rest <;> simp [readQuoted, noEscape]

/-- The characters of a quoted text, each with a backslash before it or without. -/
def slashed (pieces : List (Bool × Char)) : List Char :=
  pieces.flatMap fun (escaped, c) => if escaped then ['\\', c] else [c]

theorem readQuoted_slashed {quote : Char} {pieces : List (Bool × Char)}
    (plain : ∀ c, (false, c) ∈ pieces → c ≠ '\\' ∧ c ≠ quote) (before rest : List Char) :
    readQuoted quote before (slashed pieces ++ rest) =
      readQuoted quote ((pieces.map (·.2)).reverse ++ before) rest := by
  induction pieces generalizing before with
  | nil => rfl
  | cons piece pieces ih =>
    have others := ih fun c member => plain c (List.mem_cons_of_mem piece member)
    obtain ⟨escaped, c⟩ := piece
    cases escaped with
    | false =>
      obtain ⟨noBackslash, noQuote⟩ := plain c List.mem_cons_self
      have here : slashed ((false, c) :: pieces) = c :: slashed pieces := rfl
      rw [here, List.cons_append, readQuoted_cons noBackslash, if_neg noQuote, others]
      simp
    | true =>
      have here : slashed ((true, c) :: pieces) = '\\' :: c :: slashed pieces := rfl
      rw [here, List.cons_append, List.cons_append, readQuoted, others]
      simp

theorem readQuoted_closed {quote : Char} (noBackslash : quote ≠ '\\') {pieces : List (Bool × Char)}
    (plain : ∀ c, (false, c) ∈ pieces → c ≠ '\\' ∧ c ≠ quote) (rest : List Char) :
    readQuoted quote [] (slashed pieces ++ quote :: rest) =
      .ok (.ofList (pieces.map (·.2)), rest) := by
  rw [readQuoted_slashed plain, readQuoted_cons noBackslash, if_pos rfl]
  simp

theorem flatMap_quotedChar (name : List Char) :
    name.flatMap quotedChar =
      slashed (name.map fun c => (decide (c = '\\' ∨ c = '\''), c)) := by
  simp only [slashed, List.flatMap_map, decide_eq_true_eq]
  rfl

theorem writeQuoted_append (name : String) (rest : List Char) :
    writeQuoted name ++ rest = '\'' :: (name.toList.flatMap quotedChar ++ '\'' :: rest) := by
  simp [writeQuoted]

theorem readQuoted_written (name : String) (rest : List Char) :
    readQuoted '\'' [] (name.toList.flatMap quotedChar ++ '\'' :: rest) = .ok (name, rest) := by
  rw [flatMap_quotedChar, readQuoted_closed (by decide) (by simp)]
  simp [Function.comp_def]

def startsNumber (c : Char) : Bool := c == '-' || c.isDigit

theorem renderInt_eq_cons (n : Int) :
    ∃ c rest, renderInt n = c :: rest ∧ startsNumber c = true := by
  by_cases negative : n < 0
  · exact ⟨'-', n.natAbs.repr.toList, by simp [renderInt, negative], rfl⟩
  · obtain ⟨c, rest, written, digit, -⟩ := repr_eq_cons n.natAbs
    exact ⟨c, rest, by simp [renderInt, negative, written], by simp [startsNumber, digit]⟩

theorem stops_isDigit {rest : List Char} (stops : Stops startsNumber rest) :
    Stops Char.isDigit rest := fun c first =>
  (Bool.or_eq_false_iff.mp (stops c first)).2

theorem readInteger_none {rest : List Char} (stops : Stops startsNumber rest) :
    readInteger rest = .ok (none, rest) := by
  cases rest with
  | nil => rfl
  | cons c rest =>
    have other : startsNumber c = false := stops c rfl
    simp only [startsNumber, Bool.or_eq_false_iff, beq_eq_false_iff_ne] at other
    obtain ⟨noSign, noDigit⟩ := other
    simp [readInteger, noSign, noDigit]

theorem readInteger_renderInt {n : Int} (fits : IsSigned64 n) {rest : List Char}
    (stops : Stops Char.isDigit rest) : readInteger (renderInt n ++ rest) = .ok (some n, rest) := by
  obtain ⟨m, magnitude⟩ : ∃ m, n.natAbs = m := ⟨n.natAbs, rfl⟩
  obtain ⟨first, others, written, digit, -⟩ := repr_eq_cons m
  have all : ∀ c ∈ m.repr.toList, c.isDigit = true := fun c member => isDigit_of_mem_repr member
  have spanned := span_append all stops
  have value := decimalValue_repr m
  rw [written] at spanned value
  by_cases negative : n < 0
  · have small : m ≤ twoTo 63 := by
      have bound := fits.1
      omega
    have absolute : -(m : Int) = n := by omega
    simp only [renderInt, if_pos negative, magnitude, written, List.cons_append] at spanned ⊢
    simp [readInteger, -List.span_eq_takeWhile_dropWhile, spanned, value, small, absolute]
  · have small : m < twoTo 63 := by
      have bound := fits.2
      omega
    have absolute : (m : Int) = n := by omega
    have noSign : first ≠ '-' := by
      rintro rfl
      cases digit
    simp only [renderInt, if_neg negative, magnitude, written, List.cons_append] at spanned ⊢
    simp [readInteger, noSign, -List.span_eq_takeWhile_dropWhile, spanned, value, small, absolute]

theorem readInteger_writeBound {bound : Option Int} (fits : ∀ n ∈ bound, IsSigned64 n)
    {rest : List Char} (stops : Stops startsNumber rest) :
    readInteger (writeBound bound ++ rest) = .ok (bound, rest) := by
  cases bound with
  | none => exact readInteger_none stops
  | some n => exact readInteger_renderInt (fits n rfl) (stops_isDigit stops)

theorem skipSpaces_renderInt (n : Int) (rest : List Char) :
    skipSpaces (renderInt n ++ rest) = renderInt n ++ rest := by
  obtain ⟨c, others, written, number⟩ := renderInt_eq_cons n
  have other : c ≠ ' ' := by
    rintro rfl
    cases number
  rw [written, List.cons_append, skipSpaces_cons other]

theorem skipSpaces_writeBound (bound : Option Int) {c : Char} (other : c ≠ ' ')
    (rest : List Char) :
    skipSpaces (writeBound bound ++ c :: rest) = writeBound bound ++ c :: rest := by
  cases bound with
  | none => exact skipSpaces_cons other rest
  | some n => exact skipSpaces_renderInt n (c :: rest)

theorem ends_item {c : Char} (ends : c = ',' ∨ c = ']') :
    startsNumber c = false ∧ c ≠ ' ' ∧ c ≠ ':' := by
  rcases ends with rfl | rfl <;> decide

theorem readIndexOrSlice_index {n : Int} (fits : IsSigned64 n) {c : Char}
    (ends : c = ',' ∨ c = ']') (rest : List Char) :
    readIndexOrSlice (renderInt n ++ c :: rest) = .ok (.index n, c :: rest) := by
  obtain ⟨noNumber, noSpace, noColon⟩ := ends_item ends
  have position := readInteger_renderInt fits (stops_isDigit (stops_cons noNumber rest))
  simp [readIndexOrSlice, position, noSpace, noColon]

theorem readIndexOrSlice_slice {first last : Option Int} (firstFits : ∀ n ∈ first, IsSigned64 n)
    (lastFits : ∀ n ∈ last, IsSigned64 n) {c : Char} (ends : c = ',' ∨ c = ']')
    (rest : List Char) :
    readIndexOrSlice (writeBound first ++ ':' :: (writeBound last ++ c :: rest)) =
      .ok (.slice first last, c :: rest) := by
  obtain ⟨noNumber, noSpace, noColon⟩ := ends_item ends
  have colonStops : Stops startsNumber (':' :: (writeBound last ++ c :: rest)) :=
    stops_cons (by decide) _
  have start := readInteger_writeBound firstFits colonStops
  have stop := readInteger_writeBound lastFits (stops_cons noNumber rest)
  simp [readIndexOrSlice, start, stop, skipSpaces_writeBound last noSpace, noSpace, noColon]

theorem readComparison_append (comparison : Comparison) {rest : List Char}
    (stops : Stops (· == '=') rest) :
    readComparison (comparison.symbol ++ rest) = .ok (comparison, rest) := by
  have noEqual (after : List Char) : rest ≠ '=' :: after := by
    rintro rfl
    cases stops '=' rfl
  cases comparison with
  | lt | gt =>
    simp only [Comparison.symbol, List.singleton_append]
    unfold readComparison
    split <;> simp_all
  | _ => rfl

theorem skipSpaces_symbol (comparison : Comparison) (rest : List Char) :
    skipSpaces (comparison.symbol ++ rest) = comparison.symbol ++ rest := by
  cases comparison <;> exact skipSpaces_cons (by decide) _

def inWord (c : Char) : Bool := c != ' ' && c != ')'

theorem readLiteral_word {word rest : List Char} (noQuote : Stops isQuote (word ++ rest))
    (all : ∀ c ∈ word, inWord c = true) (stops : Stops inWord rest) :
    readLiteral (word ++ rest) =
      match bareLiteral? word with
      | some literal => .ok (literal, rest)
      | none => stop .expectedLiteral (word ++ rest) := by
  have spanned := span_append all stops
  unfold inWord at spanned
  generalize word ++ rest = input at noQuote spanned ⊢
  cases denoted : bareLiteral? word with
  | none =>
    cases input with
    | nil => simp only [readLiteral, spanned, denoted]
    | cons c input =>
      have plain : isQuote c = false := noQuote c rfl
      simp only [readLiteral, plain, spanned, denoted, Bool.false_eq_true, if_false]
  | some literal =>
    cases input with
    | nil => simp only [readLiteral, spanned, denoted]
    | cons c input =>
      have plain : isQuote c = false := noQuote c rfl
      simp only [readLiteral, plain, spanned, denoted, Bool.false_eq_true, if_false]

def isBare (c : Char) : Bool := c != ' ' && c != ')' && !isQuote c

theorem isBare_of_isNumberChar {c : Char} (number : Json.isNumberChar c = true) :
    isBare c = true := by
  have other (d : Char) (noNumber : Json.isNumberChar d = false) : c ≠ d := by
    rintro rfl
    rw [noNumber] at number
    cases number
  simp [isBare, isQuote, other ' ' (by rfl), other ')' (by rfl), other '\'' (by rfl),
    other '"' (by rfl)]

theorem readLiteral_bare {word : List Char} (bare : ∀ c ∈ word, isBare c = true)
    {literal : Literal} (denoted : bareLiteral? word = some literal) (rest : List Char) :
    readLiteral (word ++ ')' :: rest) = .ok (literal, ')' :: rest) := by
  have all : ∀ c ∈ word, inWord c = true := fun c member =>
    (Bool.and_eq_true_iff.mp (bare c member)).1
  have noQuote : Stops isQuote (word ++ ')' :: rest) := by
    cases word with
    | nil => exact stops_cons (by decide) rest
    | cons c word =>
      have first := (Bool.and_eq_true_iff.mp (bare c List.mem_cons_self)).2
      exact stops_cons (by simpa using first) _
  rw [readLiteral_word noQuote all (stops_cons (by decide) rest), denoted]

theorem string_or_bare {literal : Literal} (back : literal.ReadsBack) :
    (∃ text, literal = .string text) ∨
      (∀ c ∈ literal.write, isBare c = true) ∧ bareLiteral? literal.write = some literal := by
  cases literal with
  | null => exact .inr ⟨List.all_eq_true.mp rfl, rfl⟩
  | bool value => cases value <;> exact .inr ⟨List.all_eq_true.mp rfl, rfl⟩
  | number n =>
    have bare : ∀ c ∈ n.json, isBare c = true := fun c member =>
      isBare_of_isNumberChar (Json.isNumberChar_of_mem_json n c member)
    have same : Json.read .text (Utf8.encode n.json) = .ok (.number n) := back
    have denoted : bareLiteral? n.json = some (.number n) := by simp [bareLiteral?, same]
    exact .inr ⟨bare, denoted⟩
  | string text => exact .inl ⟨text, rfl⟩

theorem readLiteral_written {literal : Literal} (back : literal.ReadsBack) (rest : List Char) :
    readLiteral (literal.write ++ ')' :: rest) = .ok (literal, ')' :: rest) := by
  rcases string_or_bare back with ⟨text, rfl⟩ | ⟨bare, denoted⟩
  · rw [Literal.write, writeQuoted_append]
    simp [readLiteral, isQuote, readQuoted_written]
  · exact readLiteral_bare bare denoted rest

theorem skipSpaces_literal {literal : Literal} (back : literal.ReadsBack) (rest : List Char) :
    skipSpaces (literal.write ++ ')' :: rest) = literal.write ++ ')' :: rest := by
  rcases string_or_bare back with ⟨text, rfl⟩ | ⟨bare, -⟩
  · exact skipSpaces_cons (by decide) _
  · cases written : literal.write with
    | nil => exact skipSpaces_cons (by decide) rest
    | cons c word =>
      have other : c ≠ ' ' := by
        rintro rfl
        cases bare ' ' (by simp [written])
      exact skipSpaces_cons other (word ++ ')' :: rest)

def startsMember (c : Char) : Bool := c == '.' || c == '['

theorem readField_written (field : List String) {fuel : Nat} (enough : field.length ≤ fuel)
    {rest : List Char} (stops : Stops startsMember rest) :
    readField fuel (writeField field ++ rest) = .ok (field, rest) := by
  induction field generalizing fuel with
  | nil =>
    cases fuel with
    | zero => rfl
    | succ fuel =>
      cases rest with
      | nil => rfl
      | cons c rest =>
        have other : startsMember c = false := stops c rfl
        simp only [startsMember, Bool.or_eq_false_iff, beq_eq_false_iff_ne] at other
        simp [writeField, readField, other]
  | cons name field ih =>
    obtain ⟨fuel, rfl⟩ := Nat.exists_eq_add_one_of_ne_zero (Nat.ne_zero_of_lt enough)
    have others := ih (Nat.le_of_succ_le_succ enough)
    have written : writeField (name :: field) ++ rest =
        '[' :: '\'' :: (name.toList.flatMap quotedChar ++ '\'' :: ']' ::
          (writeField field ++ rest)) := by
      simp [writeField, writeQuoted]
    simp [written, readField, isQuote, readQuoted_written, others]

theorem stops_writeTest (test : Option (Comparison × Literal)) (rest : List Char) :
    Stops startsMember (writeTest test ++ ')' :: rest) := by
  cases test <;> exact stops_cons (by rfl) _

theorem readTest_none (rest : List Char) :
    readTest (writeTest none ++ ')' :: rest) = .ok (none, rest) := rfl

theorem readTest_some (comparison : Comparison) {literal : Literal} (back : literal.ReadsBack)
    (rest : List Char) :
    readTest (writeTest (some (comparison, literal)) ++ ')' :: rest) =
      .ok (some (comparison, literal), rest) := by
  have start : skipSpaces (writeTest (some (comparison, literal)) ++ ')' :: rest) =
      comparison.symbol ++ ' ' :: (literal.write ++ ')' :: rest) := by
    simp [writeTest, skipSpaces_symbol]
  rw [readTest, start]
  split
  · -- No operator is a closing parenthesis.
    rename_i head
    cases comparison <;> cases head
  · have noEqual : Stops (· == '=') (' ' :: (literal.write ++ ')' :: rest)) :=
      stops_cons (by decide) _
    simp [readComparison_append comparison noEqual, skipSpaces_literal back,
      readLiteral_written back]

theorem readFilter_written (filter : Filter)
    (back : ∀ literal ∈ filter.test.map Prod.snd, literal.ReadsBack) (rest : List Char) :
    readItem (filter.write ++ rest) = .ok (.filter filter, rest) := by
  obtain ⟨field, test⟩ := filter
  have bracket := skipSpaces_cons (show '(' ≠ ' ' by decide)
  have root := skipSpaces_cons (show '@' ≠ ' ' by decide)
  have written : Filter.write { field, test } ++ rest =
      '?' :: '(' :: '@' :: (writeField field ++ (writeTest test ++ ')' :: rest)) := by
    simp [Filter.write]
  have enough : field.length ≤ (writeField field ++ (writeTest test ++ ')' :: rest)).length := by
    rw [List.length_append]
    exact Nat.le_add_right_of_le (length_le_flatMap (by simp) field)
  have fieldRead := readField_written field enough (stops_writeTest test rest)
  have testRead : readTest (writeTest test ++ ')' :: rest) = .ok (test, rest) := by
    cases test with
    | none => exact readTest_none rest
    | some test => exact readTest_some test.1 (back test.2 rfl) rest
  simp only [written, readItem, readFilter, bracket, root, expect_cons, fieldRead, testRead,
    Fallible.ok_bind, Fallible.pure_eq_ok]

theorem readItem_number {c : Char} (starts : startsNumber c = true ∨ c = ':') (rest : List Char) :
    readItem (c :: rest) = readIndexOrSlice (c :: rest) := by
  have other (d : Char) (noNumber : startsNumber d = false ∧ d ≠ ':') : c ≠ d := by
    rintro rfl
    rcases starts with number | colon
    · rw [noNumber.1] at number
      cases number
    · exact noNumber.2 colon
  simp [readItem, isQuote, other '*' (by decide), other '?' (by decide), other '(' (by decide),
    other '\'' (by decide), other '"' (by decide)]

theorem readItem_written {item : Selector} (isItem : item.IsItem)
    (back : ∀ literal ∈ item.literal?, literal.ReadsBack) {c : Char} (ends : c = ',' ∨ c = ']')
    (rest : List Char) : readItem (item.writeItem ++ c :: rest) = .ok (item, c :: rest) := by
  cases item with
  | name text =>
    rw [Selector.writeItem, writeQuoted_append]
    simp [readItem, isQuote, readQuoted_written]
  | wildcard => rfl
  | index n =>
    obtain ⟨first, others, written, number⟩ := renderInt_eq_cons n
    have indexRead := readIndexOrSlice_index isItem ends rest
    rw [written, List.cons_append] at indexRead
    rw [Selector.writeItem, written, List.cons_append, readItem_number (.inl number)]
    exact indexRead
  | slice first last =>
    have sliceRead := readIndexOrSlice_slice isItem.1 isItem.2 ends rest
    rw [Selector.writeItem, List.append_assoc, List.cons_append]
    cases first with
    | none => exact (readItem_number (.inr rfl) _).trans sliceRead
    | some n =>
      obtain ⟨head, others, written, number⟩ := renderInt_eq_cons n
      rw [writeBound, Option.elim_some, written, List.cons_append] at sliceRead ⊢
      exact (readItem_number (.inl number) _).trans sliceRead
  | union items => exact absurd isItem id
  | filter condition =>
    obtain ⟨field, test⟩ := condition
    have same : ∀ literal ∈ test.map Prod.snd, literal.ReadsBack := by
      cases test with
      | none => simp
      | some test => simpa [Selector.literal?] using back
    exact readFilter_written ⟨field, test⟩ same (c :: rest)

theorem skipSpaces_writeItem {item : Selector} (isItem : item.IsItem) (rest : List Char) :
    skipSpaces (item.writeItem ++ rest) = item.writeItem ++ rest := by
  cases item with
  | index n => exact skipSpaces_renderInt n rest
  | slice first last =>
    simp only [Selector.writeItem, List.append_assoc, List.cons_append]
    exact skipSpaces_writeBound first (by decide) _
  | union items => exact absurd isItem id
  | _ => exact skipSpaces_cons (by decide) _

theorem readItems_written {items : List Selector} (someItem : items ≠ [])
    (isItem : ∀ item ∈ items, item.IsItem)
    (back : ∀ item ∈ items, ∀ literal ∈ item.literal?, literal.ReadsBack) {fuel : Nat}
    (enough : items.length ≤ fuel) (rest : List Char) :
    readItems fuel (join ',' (items.map Selector.writeItem) ++ ']' :: rest) =
      .ok (items, rest) := by
  induction items generalizing fuel with
  | nil => exact absurd rfl someItem
  | cons item items ih =>
    obtain ⟨fuel, rfl⟩ := Nat.exists_eq_add_one_of_ne_zero (Nat.ne_zero_of_lt enough)
    obtain ⟨firstItem, otherItems⟩ := List.forall_mem_cons.mp isItem
    obtain ⟨firstBack, otherBack⟩ := List.forall_mem_cons.mp back
    cases items with
    | nil =>
      have itemRead := readItem_written firstItem firstBack (.inr rfl) rest
      simp [join, List.intercalate, readItems, skipSpaces_writeItem firstItem, itemRead]
    | cons next items =>
      have comma := skipSpaces_cons (show ',' ≠ ' ' by decide)
      have others := ih (List.cons_ne_nil next items) otherItems otherBack
        (Nat.le_of_succ_le_succ enough)
      have itemRead := readItem_written firstItem firstBack (.inl rfl)
        (join ',' ((next :: items).map Selector.writeItem) ++ ']' :: rest)
      have written : join ',' ((item :: next :: items).map Selector.writeItem) ++ ']' :: rest =
          item.writeItem ++ ',' ::
            (join ',' ((next :: items).map Selector.writeItem) ++ ']' :: rest) := by
        simp only [List.map_cons, join_cons_cons, List.append_assoc, List.cons_append]
      simp only [written, readItems, skipSpaces_writeItem firstItem, itemRead, comma, others,
        Fallible.ok_bind, Fallible.pure_eq_ok]

theorem ofItems_items {selector : Selector} (wellFormed : selector.WellFormed) :
    Selector.ofItems selector.items = selector := by
  cases selector with
  | union items =>
    match items, wellFormed.1 with
    | first :: second :: items, _ => rfl
  | _ => rfl

theorem items_of_wellFormed {selector : Selector} (wellFormed : selector.WellFormed) :
    selector.items ≠ [] ∧ ∀ item ∈ selector.items, item.IsItem := by
  cases selector with
  | union items =>
    obtain ⟨several, isItem⟩ := wellFormed
    refine ⟨?_, isItem⟩
    rintro rfl
    cases several
  | _ => exact ⟨List.cons_ne_nil _ [], List.forall_mem_singleton.mpr wellFormed⟩

theorem readBracket_write {selector : Selector} (wellFormed : selector.WellFormed)
    (back : ∀ item ∈ selector.items, ∀ literal ∈ item.literal?, literal.ReadsBack)
    (rest : List Char) :
    readBracket (join ',' (selector.items.map Selector.writeItem) ++ ']' :: rest) =
      .ok (selector, rest) := by
  obtain ⟨someItem, isItem⟩ := items_of_wellFormed wellFormed
  have enough := length_le_join ',' (selector.items.map Selector.writeItem)
  have itemsRead := readItems_written someItem isItem back
    (show selector.items.length ≤
        (join ',' (selector.items.map Selector.writeItem) ++ ']' :: rest).length + 1 by
      simp only [List.length_map, List.length_append, List.length_cons] at enough ⊢
      omega) rest
  simp only [readBracket, itemsRead, Fallible.ok_map, ofItems_items wellFormed]

theorem readSegment_write {segment : Segment} (wellFormed : segment.selector.WellFormed)
    (back : ∀ item ∈ segment.selector.items, ∀ literal ∈ item.literal?, literal.ReadsBack)
    (rest : List Char) : readSegment (segment.write ++ rest) = .ok (segment, rest) := by
  have bracketRead := readBracket_write wellFormed back rest
  cases segment with
  | child selector =>
    simp only [Segment.selector] at bracketRead
    simp [Segment.write, Selector.write, readSegment, bracketRead]
  | descendant selector =>
    simp only [Segment.selector] at bracketRead
    simp [Segment.write, Selector.write, readSegment, bracketRead]

theorem Segment.write_eq_cons (segment : Segment) : ∃ c rest, segment.write = c :: rest := by
  cases segment <;> exact ⟨_, _, rfl⟩

theorem Segment.write_eq_concat (segment : Segment) : ∃ text, segment.write = text ++ [']'] := by
  cases segment with
  | child selector => exact ⟨_, rfl⟩
  | descendant selector => exact ⟨'.' :: '.' :: _, rfl⟩

theorem Segment.write_ne_nil (segment : Segment) : segment.write ≠ [] := by
  obtain ⟨c, rest, written⟩ := segment.write_eq_cons
  rw [written]
  exact List.cons_ne_nil c rest

theorem readSegments_write {segments : List Segment}
    (wellFormed : ∀ segment ∈ segments, segment.selector.WellFormed)
    (back : ∀ segment ∈ segments, ∀ item ∈ segment.selector.items, ∀ literal ∈ item.literal?,
      literal.ReadsBack)
    {fuel : Nat} (enough : segments.length ≤ fuel) :
    readSegments fuel (segments.flatMap Segment.write) = .ok segments := by
  induction segments generalizing fuel with
  | nil => cases fuel <;> rfl
  | cons segment segments ih =>
    obtain ⟨fuel, rfl⟩ := Nat.exists_eq_add_one_of_ne_zero (Nat.ne_zero_of_lt enough)
    obtain ⟨firstFormed, othersFormed⟩ := List.forall_mem_cons.mp wellFormed
    obtain ⟨firstBack, othersBack⟩ := List.forall_mem_cons.mp back
    have others := ih othersFormed othersBack (Nat.le_of_succ_le_succ enough)
    have first := readSegment_write firstFormed firstBack (segments.flatMap Segment.write)
    obtain ⟨c, rest, written⟩ := segment.write_eq_cons
    rw [List.flatMap_cons]
    rw [written, List.cons_append] at first ⊢
    simp only [readSegments, first, others, Fallible.ok_bind, Fallible.pure_eq_ok]

end Query

namespace Path

open Text

theorem mem_literals_iff (path : Path) (literal : Query.Literal) :
    literal ∈ path.literals ↔
      ∃ segment ∈ path.segments, ∃ item ∈ segment.selector.items,
        literal ∈ item.literal? := by
  simp [literals]

theorem getLast?_write (segments : List Query.Segment) :
    ∀ c ∈ ('$' :: segments.flatMap Query.Segment.write).getLast?, isBlank c = false := by
  intro c last
  rcases List.eq_nil_or_concat segments with rfl | ⟨before, segment, rfl⟩
  · cases last
    rfl
  · obtain ⟨text, written⟩ := segment.write_eq_concat
    have ends : '$' :: (before.concat segment).flatMap Query.Segment.write =
        ('$' :: before.flatMap Query.Segment.write ++ text) ++ [']'] := by
      simp [written]
    rw [ends, List.getLast?_concat] at last
    cases last
    rfl

theorem parse_write {path : Path} (wellFormed : path.WellFormed)
    (back : ∀ literal ∈ path.literals, literal.ReadsBack) : Path.parse path.write = .ok path := by
  have trimmed := trim_of_ends (by rintro c ⟨⟩; rfl) (getLast?_write path.segments)
  have segmentsBack : ∀ segment ∈ path.segments, ∀ item ∈ segment.selector.items,
      ∀ literal ∈ item.literal?, literal.ReadsBack := by
    intro segment inPath item inSegment literal here
    apply back literal
    exact (mem_literals_iff path literal).mpr ⟨segment, inPath, item, inSegment, here⟩
  have segmentsRead := Query.readSegments_write wellFormed segmentsBack
    (length_le_flatMap Query.Segment.write_ne_nil path.segments)
  simp only [Path.parse, write, String.toList_ofList, trimmed, Query.readPath, segmentsRead,
    Fallible.ok_map, Except.mapError]

end Path

end Reconcile
