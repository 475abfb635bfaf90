import Reconcile.Proofs.Fallible
import Reconcile.Proofs.Query.Places
import Reconcile.Proofs.Query.Taking

namespace Reconcile.Query.Cursor

open Json (byte)
open Text

variable {α β σ : Type} {text rest : List Char}

variable (text) in
/-- From the rest of a text on, both readers leave the same rest of it, or halt at the same place
with the same fault. -/
inductive Agrees (rest : List Char) :
    Except Halt (α × Nat) → Except Stop (α × List Char) → Prop
  | read (result : α) {left : List Char} (suffix : left <:+ rest) :
      Agrees rest (.ok (result, place text left)) (.ok (result, left))
  | halted (stop : Stop) (suffix : stop.rest <:+ rest) :
      Agrees rest (.error (.fault (stop.toError text))) (.error stop)

namespace Agrees

theorem mono {left : List Char} {found : Except Halt (α × Nat)}
    {read : Except Stop (α × List Char)} (agrees : Agrees text left found read)
    (suffix : left <:+ rest) : Agrees text rest found read := by
  cases agrees with
  | read result further => exact .read result (further.trans suffix)
  | halted stop further => exact .halted stop (further.trans suffix)

theorem suffix {found : Except Halt (α × Nat)} {result : α} {left : List Char}
    (agrees : Agrees text rest found (.ok (result, left))) : left <:+ rest := by
  cases agrees with
  | read _ suffix => exact suffix

theorem bind {reader : Reader α} {next : α → Reader β} {cursor : Nat}
    {read : Except Stop (α × List Char)} {follow : α × List Char → Except Stop (β × List Char)}
    (first : Agrees text rest (reader cursor) read)
    (others : ∀ result left, left <:+ rest →
      Agrees text left (next result (place text left)) (follow (result, left))) :
    Agrees text rest ((reader >>= next) cursor) (read >>= follow) := by
  rw [bind_at]
  generalize reader cursor = found at first
  cases first with
  | read result suffix => exact (others result _ suffix).mono suffix
  | halted stop suffix => exact .halted stop suffix

theorem map {reader : Reader α} {cursor : Nat} {read : Except Stop (α × List Char)} (f : α → β)
    (agrees : Agrees text rest (reader cursor) read) :
    Agrees text rest ((reader >>= fun result => pure (f result)) cursor)
      (read.map fun (result, left) => (f result, left)) := by
  rw [bind_at]
  generalize reader cursor = found at agrees
  cases agrees with
  | read result suffix => exact .read (f result) suffix
  | halted stop suffix => exact .halted stop suffix

theorem fault (reason : Reason) {left : List Char} (suffix : left <:+ rest) :
    Agrees text rest ((Cursor.fault text reason : Reader α) (place text left))
      (stop reason left) :=
  .halted ⟨reason, left⟩ suffix

theorem faultAt (reason : Reason) {left : List Char} (suffix : left <:+ rest) {cursor : Nat} :
    Agrees text rest ((Cursor.faultAt text (place text left) reason : Reader α) cursor)
      (stop reason left) :=
  .halted ⟨reason, left⟩ suffix

end Agrees

theorem expect_agrees {c : Char} (ascii : c.toNat < 0x80) (suffix : rest <:+ text)
    {next : Unit → Reader β} {follow : List Char → Except Stop (β × List Char)}
    (others : ∀ left, left <:+ rest → Agrees text left (next () (place text left)) (follow left)) :
    Agrees text rest ((expect text c >>= next) (place text rest))
      (Query.expect c rest >>= follow) := by
  rw [expect, bind_assoc, peek_bind _ suffix]
  simp only [head?_encode_eq_iff ascii]
  cases rest with
  | nil => exact .fault (.expected c) (List.suffix_refl _)
  | cons d rest =>
    by_cases same : d = c
    · subst same
      have further := List.suffix_cons d rest
      simp only [List.head?_cons, reduceIte, Query.expect, Fallible.ok_bind]
      rw [advance_bind ascii _ suffix]
      exact (others rest further).mono further
    · simp only [List.head?_cons, Option.some.injEq, same, reduceIte, Query.expect]
      exact .fault (.expected c) (List.suffix_refl _)

theorem reads_run {ends : List Char} (ascii : ∀ c ∈ ends, c.toNat < 0x80) :
    Reads (fun b => !(ends.map byte).contains b) (fun c => !ends.contains c) := by
  intro c b member
  dsimp only
  congr 1
  induction ends with
  | nil => rfl
  | cons d ends ih =>
    rw [List.forall_mem_cons] at ascii
    rw [List.map_cons, List.contains_cons, List.contains_cons, beq_byte ascii.1 member,
      ih ascii.2]

theorem run_agrees {ends : List Char} (ascii : ∀ c ∈ ends, c.toNat < 0x80)
    (suffix : rest <:+ text) : Agrees text rest (run text ends (place text rest))
      (readRun ends rest) := by
  obtain ⟨name, left, rfl, all, stops⟩ := exists_run (fun c => !ends.contains c) rest
  rw [run, get_bind, skipWhile_run_bind (reads_run ascii) all stops _ suffix, get_bind, readRun,
    span_append all stops]
  cases name with
  | nil =>
    rw [List.nil_append, if_pos rfl]
    exact .fault .expectedName (List.suffix_refl _)
  | cons c name =>
    have further := List.suffix_append (c :: name) left
    have shorter : left.length < (c :: name ++ left).length := by
      rw [List.cons_append, List.length_cons, List.length_append]
      omega
    have apart := place_lt suffix further shorter
    rw [if_neg (Nat.ne_of_lt apart), slice_bind _ suffix]
    exact .read _ further

theorem ne_backslash {c : Char} {rest : List Char} (notLast : c = '\\' → rest = [] → False)
    (notEscape : ∀ d others, c = '\\' → rest = d :: others → False) : c ≠ '\\' := by
  rintro rfl
  cases rest with
  | nil => exact notLast rfl rfl
  | cons d others => exact notEscape d others rfl rfl

/-- What a loop between quotes makes of the run from its start on is what the reader of characters
holds in front of the rest. -/
theorem quotedLoop_agrees {quote : Char} (ascii : quote.toNat < 0x80) {run : List Char}
    (suffix : run ++ rest <:+ text) {taken name : List Char}
    (same : name.reverse = taken ++ run) :
    Agrees text rest
      (loop text (quotedRound text (byte quote)) (taken, place text (run ++ rest))
        (place text rest))
      (readQuoted quote name rest) := by
  have restSuffix := (List.suffix_append run rest).trans suffix
  fun_induction readQuoted quote name rest generalizing run taken with
  | case1 name =>
    rw [loop_at, quotedRound, bind_assoc, peek_bind _ restSuffix]
    exact .fault .openQuote (List.suffix_refl _)
  | case2 name =>
    rw [loop_at, quotedRound, bind_assoc, peek_bind _ restSuffix, Json.encode_cons (by decide),
      List.head?_cons]
    simp only [reduceIte, bind_assoc]
    rw [get_bind, slice_bind _ suffix, advance_bind (by decide) _ restSuffix, get_bind,
      slice_ahead_bind _ List.nil_suffix]
    exact .fault .openQuote List.nil_suffix
  | case3 name c rest ih =>
    have escaped := List.suffix_cons '\\' (c :: rest)
    have left := List.suffix_cons c rest
    have shorter : rest.length < ('\\' :: c :: rest).length := by
      rw [List.length_cons, List.length_cons]
      omega
    rw [loop_at, quotedRound, bind_assoc, peek_bind _ restSuffix, Json.encode_cons (by decide),
      List.head?_cons]
    simp only [reduceIte, bind_assoc]
    rw [get_bind, slice_bind _ suffix, advance_bind (by decide) _ restSuffix, get_bind,
      slice_ahead_bind _ (escaped.trans restSuffix)]
    simp only [List.head?_cons, bind_assoc]
    rw [advance_width_bind _ (escaped.trans restSuffix), get_bind, pure_bind_at,
      proceed_again _ restSuffix (left.trans escaped) shorter]
    have others := (left.trans escaped).trans restSuffix
    have empty : [] ++ rest <:+ text := others
    exact (ih empty (by simp [same]) others).mono (left.trans escaped)
  | case4 name rest notLast notEscape =>
    have noEscape := ne_byte (by decide) (ne_backslash notLast notEscape) (byte_mem ascii)
    have further := List.suffix_cons quote rest
    rw [loop_at, quotedRound, bind_assoc, peek_bind _ restSuffix, Json.encode_cons ascii,
      List.head?_cons]
    simp only [if_neg noEscape, reduceIte, bind_assoc]
    rw [get_bind, slice_bind _ suffix, advance_bind ascii _ restSuffix, pure_bind_at, same]
    exact .read _ further
  | case5 name c rest notLast notEscape other ih =>
    have noEscape := ne_backslash notLast notEscape
    have further := List.suffix_cons c rest
    rw [loop_over_char (fun b member cursor seen => ?_) restSuffix, List.append_cons]
    · rw [List.append_cons] at suffix
      exact (ih suffix (by simp [same]) (further.trans restSuffix)).mono further
    · rw [quotedRound, peek_bind_of_seen seen]
      simp only [if_neg (ne_byte (by decide) noEscape member), if_neg (ne_byte ascii other member)]

theorem ascii_of_isQuote {c : Char} (quote : isQuote c = true) : c.toNat < 0x80 := by
  rw [isQuote, Bool.or_eq_true, beq_iff_eq, beq_iff_eq] at quote
  rcases quote with rfl | rfl <;> decide

theorem quoted_agrees {quote : Char} (ascii : quote.toNat < 0x80)
    (suffix : quote :: rest <:+ text) :
    Agrees text rest (quoted text (byte quote) (place text (quote :: rest)))
      (readQuoted quote [] rest) := by
  have empty : [] ++ rest <:+ text := (List.suffix_cons quote rest).trans suffix
  rw [quoted, advance_bind ascii _ suffix, get_bind]
  exact quotedLoop_agrees ascii empty rfl

theorem peekQuote_bind_quote {quote : Char} (isQuote : isQuote quote = true)
    (next : Option UInt8 → Reader β) (suffix : quote :: rest <:+ text) :
    (peekQuote text >>= next) (place text (quote :: rest)) =
      next (some (byte quote)) (place text (quote :: rest)) := by
  have ascii := ascii_of_isQuote isQuote
  rw [peekQuote, bind_assoc, peek_bind _ suffix, Json.encode_cons ascii, List.head?_cons]
  have kept : (byte quote == byte '\'' || byte quote == byte '"') = true := by
    rw [beq_byte (by decide) (byte_mem ascii), beq_byte (by decide) (byte_mem ascii)]
    exact isQuote
  simp only [Option.filter_some, kept, reduceIte]
  rfl

theorem peekQuote_bind_none (noQuote : Stops isQuote rest) (next : Option UInt8 → Reader β)
    (suffix : rest <:+ text) :
    (peekQuote text >>= next) (place text rest) = next none (place text rest) := by
  rw [peekQuote, bind_assoc, peek_bind _ suffix]
  cases rest with
  | nil => rfl
  | cons c rest =>
    obtain ⟨first, others, written, -⟩ := Utf8.encodeChar_eq_cons c
    have inChar : first ∈ Utf8.encodeChar c := by simp [written]
    have dropped : (first == byte '\'' || first == byte '"') = false := by
      rw [beq_byte (by decide) inChar, beq_byte (by decide) inChar]
      exact noQuote c rfl
    rw [Utf8.encode_cons, written, List.cons_append, List.head?_cons]
    simp only [Option.filter_some, dropped, Bool.false_eq_true, reduceIte]
    rfl

theorem reads_digit : Reads Json.isDigit Char.isDigit := by
  intro c b member
  have ofChar : c.isDigit = true ↔ 48 ≤ c.toNat ∧ c.toNat ≤ 57 := by
    simp only [Char.isDigit, Bool.and_eq_true, decide_eq_true_eq, ge_iff_le, UInt32.le_iff_toNat_le]
    rfl
  have ofByte : Json.isDigit b = true ↔ 48 ≤ b.toNat ∧ b.toNat ≤ 57 := by
    simp only [Json.isDigit, Bool.and_eq_true, decide_eq_true_eq, UInt8.le_iff_toNat_le]
    rfl
  rw [Bool.eq_iff_iff, ofChar, ofByte]
  by_cases wide : 0x80 ≤ c.toNat
  · have high := Utf8.le_of_mem_encodeChar wide member
    omega
  · rw [Utf8.encodeChar_ascii (by omega), List.mem_singleton] at member
    rw [member, Utf8.toNat_ofNat (by omega)]

theorem sign_bind (next : Unit → Reader β) (suffix : '-' :: rest <:+ text) :
    (sign text >>= next) (place text ('-' :: rest)) = next () (place text rest) := by
  rw [sign, bind_assoc, peek_bind _ suffix, Json.encode_cons (by decide), List.head?_cons,
    if_pos rfl, advance_bind (by decide) _ suffix]

theorem noSign_bind (noSign : rest.head? ≠ some '-') (next : Unit → Reader β)
    (suffix : rest <:+ text) :
    (sign text >>= next) (place text rest) = next () (place text rest) := by
  rw [sign, bind_assoc, peek_bind _ suffix, if_neg (head?_encode_ne (by decide) noSign)]
  rfl

theorem integer_minus_agrees (suffix : '-' :: rest <:+ text) :
    Agrees text ('-' :: rest) (integer text (place text ('-' :: rest)))
      (readInteger ('-' :: rest)) := by
  obtain ⟨digits, left, rfl, all, stops⟩ := exists_run Char.isDigit rest
  have unsigned := (List.suffix_cons '-' (digits ++ left)).trans suffix
  have further : left <:+ '-' :: (digits ++ left) := List.suffix_append ('-' :: digits) left
  have shorter : left.length < ('-' :: (digits ++ left)).length := by
    rw [List.length_cons, List.length_append]
    omega
  have apart := place_lt suffix further shorter
  rw [integer, get_bind, sign_bind _ suffix, get_bind,
    skipWhile_run_bind reads_digit all stops _ unsigned, get_bind, readInteger_minus all stops]
  by_cases noDigit : digits = []
  · subst noDigit
    rw [List.nil_append] at apart ⊢
    rw [if_pos rfl, if_neg (Nat.ne_of_lt apart), if_pos rfl]
    exact .fault .expectedDigits further
  · have moved := place_lt unsigned (List.suffix_append digits left)
      (by simpa [List.length_pos_iff] using noDigit)
    rw [← List.cons_append] at suffix ⊢
    rw [if_neg (Nat.ne_of_lt moved), if_neg noDigit, slice_bind _ suffix, signed64]
    by_cases small : decimalValue digits ≤ twoTo 63
    · simp only [if_pos small]
      exact .read _ further
    · simp only [if_neg small]
      exact .faultAt .indexTooSmall (List.suffix_refl _)

theorem signed64_digits {digits : List Char} (all : ∀ c ∈ digits, c.isDigit = true) :
    signed64 digits =
      if decimalValue digits < twoTo 63 then .ok (decimalValue digits : Int)
      else .error .indexTooLarge := by
  unfold signed64
  split
  · cases all '-' List.mem_cons_self
  · rfl

theorem integer_agrees (suffix : rest <:+ text) :
    Agrees text rest (integer text (place text rest)) (readInteger rest) := by
  by_cases minus : rest.head? = some '-'
  · obtain ⟨unsigned, rfl⟩ := List.head?_eq_some_iff.mp minus
    exact integer_minus_agrees suffix
  obtain ⟨digits, left, rfl, all, stops⟩ := exists_run Char.isDigit rest
  have further := List.suffix_append digits left
  rw [integer, get_bind, noSign_bind minus _ suffix, get_bind,
    skipWhile_run_bind reads_digit all stops _ suffix, get_bind,
    readInteger_digits all stops minus]
  by_cases noDigit : digits = []
  · subst noDigit
    rw [List.nil_append, if_pos rfl, if_pos rfl, if_pos rfl]
    exact .read none (List.suffix_refl _)
  · have moved := place_lt suffix further (by simpa [List.length_pos_iff] using noDigit)
    rw [if_neg (Nat.ne_of_lt moved), if_neg noDigit, slice_bind _ suffix, signed64_digits all]
    by_cases small : decimalValue digits < twoTo 63
    · simp only [if_pos small]
      exact .read _ further
    · simp only [if_neg small]
      exact .faultAt .indexTooLarge (List.suffix_refl _)

theorem spaces_suffix (input : List Char) : Query.skipSpaces input <:+ input :=
  List.dropWhile_suffix _

theorem sliceEnd_agrees (start : Option Int) (suffix : rest <:+ text) :
    Agrees text rest (sliceEnd text start (place text rest))
      (do
        let (stop, left) ← readInteger (Query.skipSpaces rest)
        match Query.skipSpaces left with
        | ':' :: left => Query.stop .sliceStep (':' :: left)
        | left => return (Selector.slice start stop, left)) := by
  have spaces := spaces_suffix rest
  rw [sliceEnd, skipSpaces_bind _ suffix]
  refine .mono (.bind (integer_agrees (spaces.trans suffix)) fun stop left further => ?_) spaces
  have leftSuffix := further.trans (spaces.trans suffix)
  have lastSpaces := spaces_suffix left
  dsimp only
  rw [skipSpaces_bind _ leftSuffix, peek_bind _ (lastSpaces.trans leftSuffix)]
  generalize Query.skipSpaces left = ahead at lastSpaces ⊢
  refine .mono ?_ lastSpaces
  by_cases isStep : ahead.head? = some ':'
  · obtain ⟨after, rfl⟩ := List.head?_eq_some_iff.mp isStep
    rw [if_pos (head?_encode_cons (by decide) _)]
    exact .fault .sliceStep (List.suffix_refl _)
  · rw [if_neg (head?_encode_ne (by decide) isStep)]
    split
    · exact absurd rfl isStep
    · exact .read _ (List.suffix_refl _)

theorem indexOrSlice_agrees (suffix : rest <:+ text) :
    Agrees text rest (indexOrSlice text (place text rest)) (readIndexOrSlice rest) := by
  refine .bind (integer_agrees suffix) fun start left further => ?_
  have leftSuffix := further.trans suffix
  have spaces := spaces_suffix left
  dsimp only
  rw [skipSpaces_bind _ leftSuffix, peek_bind _ (spaces.trans leftSuffix)]
  generalize Query.skipSpaces left = ahead at spaces ⊢
  have aheadSuffix := spaces.trans leftSuffix
  refine .mono ?_ spaces
  by_cases isSlice : ahead.head? = some ':'
  · obtain ⟨after, rfl⟩ := List.head?_eq_some_iff.mp isSlice
    have further := List.suffix_cons ':' after
    rw [if_pos (head?_encode_cons (by decide) _), advance_bind (by decide) _ aheadSuffix]
    exact (sliceEnd_agrees start (further.trans aheadSuffix)).mono further
  rw [if_neg (head?_encode_ne (by decide) isSlice)]
  cases start with
  | none =>
    split
    · exact absurd rfl isSlice
    · contradiction
    · exact .fault .expectedItem (List.suffix_refl _)
  | some position =>
    split
    · exact absurd rfl isSlice
    · rename_i same
      cases same
      exact .read _ (List.suffix_refl _)
    · contradiction

theorem comparison_pair {c : Char} (ascii : c.toNat < 0x80) {found : Comparison}
    (isOperator : operator? (some (byte c)) (some (byte '=')) = some (found, 2))
    (suffix : c :: '=' :: rest <:+ text) :
    Agrees text (c :: '=' :: rest) (comparison text (place text (c :: '=' :: rest)))
      (.ok (found, rest)) := by
  have equal : ('=' : Char).toNat < 0x80 := by decide
  rw [comparison, peek_bind _ suffix, peekAt_bind 1 _ suffix, Json.encode_cons ascii,
    Json.encode_cons equal, List.head?_cons, List.getElem?_cons_succ, List.getElem?_cons_zero,
    isOperator]
  dsimp only
  rw [advance_two_bind ascii equal _ suffix]
  exact .read found ((List.suffix_cons '=' rest).trans (List.suffix_cons c _))

theorem comparison_single {c : Char} (ascii : c.toNat < 0x80) {found : Comparison}
    (isOperator : operator? (some (byte c)) (Utf8.encode rest).head? = some (found, 1))
    (suffix : c :: rest <:+ text) :
    Agrees text (c :: rest) (comparison text (place text (c :: rest))) (.ok (found, rest)) := by
  rw [comparison, peek_bind _ suffix, peekAt_bind 1 _ suffix, Json.encode_cons ascii,
    List.head?_cons, List.getElem?_cons_succ, ← List.head?_eq_getElem?, isOperator]
  dsimp only
  rw [advance_bind ascii _ suffix]
  exact .read found (List.suffix_cons c rest)

theorem comparison_agrees (suffix : rest <:+ text) :
    Agrees text rest (comparison text (place text rest)) (readComparison rest) := by
  fun_cases readComparison rest with
  | case1 rest => exact comparison_pair (by decide) rfl suffix
  | case2 rest => exact comparison_pair (by decide) rfl suffix
  | case3 rest => exact comparison_pair (by decide) rfl suffix
  | case4 rest => exact comparison_pair (by decide) rfl suffix
  | case5 rest noEqual =>
    have second := head?_encode_ne (d := '=') (by decide) (head?_ne noEqual)
    refine comparison_single (by decide) ?_ suffix
    simp only [operator?, second, and_false, reduceIte]
  | case6 rest noEqual =>
    have second := head?_encode_ne (d := '=') (by decide) (head?_ne noEqual)
    have other : some (byte '>') ≠ some (byte '<') := by decide
    refine comparison_single (by decide) ?_ suffix
    simp only [operator?, second, other, and_false, reduceIte]
  | case7 rest noEq noNe noLe noGe noLt noGt =>
    have noPair {c : Char} (ascii : c.toNat < 0x80) (none : ∀ left, rest ≠ c :: '=' :: left) :=
      mt (starts_with_two_iff ascii (by decide) rest).mp (not_exists.mpr none)
    rw [comparison, peek_bind _ suffix, peekAt_bind 1 _ suffix, operator?,
      if_neg (noPair (by decide) noEq), if_neg (noPair (by decide) noNe),
      if_neg (noPair (by decide) noLe), if_neg (noPair (by decide) noGe),
      if_neg (head?_encode_ne (by decide) (head?_ne noLt)),
      if_neg (head?_encode_ne (by decide) (head?_ne noGt))]
    exact .fault .expectedOperator (List.suffix_refl _)

theorem reads_word : Reads (fun b => b != byte ' ' && b != byte ')') inWord := by
  intro c b member
  dsimp only
  rw [bne, bne, beq_byte (by decide) member, beq_byte (by decide) member]
  rfl

theorem readLiteral_quote {quote : Char} (isQuoted : isQuote quote = true) (rest : List Char) :
    readLiteral (quote :: rest) =
      (readQuoted quote [] rest).map fun (text, rest) => (.string text, rest) := by
  simp only [readLiteral, isQuoted, reduceIte]

theorem literal_agrees (suffix : rest <:+ text) :
    Agrees text rest (literal text (place text rest)) (readLiteral rest) := by
  by_cases starts : ∃ c ∈ rest.head?, isQuote c = true
  · obtain ⟨quote, first, isQuoted⟩ := starts
    obtain ⟨rest, rfl⟩ := List.head?_eq_some_iff.mp first
    rw [literal, peekQuote_bind_quote isQuoted _ suffix, readLiteral_quote isQuoted]
    exact ((quoted_agrees (ascii_of_isQuote isQuoted) suffix).map Literal.string).mono
      (List.suffix_cons quote rest)
  · have noQuote : Stops isQuote rest := by simpa [Stops] using starts
    obtain ⟨word, left, rfl, all, stops⟩ := exists_run inWord rest
    rw [literal, peekQuote_bind_none noQuote _ suffix, readLiteral_word noQuote all stops]
    dsimp only
    rw [get_bind, skipWhile_run_bind reads_word all stops _ suffix, get_bind, slice_bind _ suffix]
    cases bareLiteral? word with
    | none => exact .faultAt .expectedLiteral (List.suffix_refl _)
    | some literal => exact .read literal (List.suffix_append word left)

end Reconcile.Query.Cursor
