import Reconcile.Proofs.Query.Tokens

namespace Reconcile.Query.Cursor

open Json (byte)
open Text

variable {α β : Type} {text rest : List Char}

def behind (before : List α) (read : Except Stop (List α × List Char)) :
    Except Stop (List α × List Char) :=
  read.map fun (more, left) => (before ++ more, left)

theorem behind_nil (before : List α) (left : List Char) :
    behind before (.ok ([], left)) = .ok (before, left) := by
  simp only [behind, Fallible.ok_map, List.append_nil]

theorem behind_empty (read : Except Stop (List α × List Char)) : behind [] read = read := by
  cases read <;> rfl

theorem behind_bind (before : List β) (first : Except Stop α)
    (follow : α → Except Stop (List β × List Char)) :
    behind before (first >>= follow) = first >>= fun result => behind before (follow result) := by
  cases first <;> rfl

theorem behind_cons (before : List α) (item : α) (read : Except Stop (List α × List Char)) :
    (behind before do
        let (more, left) ← read
        return (item :: more, left)) =
      behind (before ++ [item]) read := by
  cases read with
  | error stop => rfl
  | ok result => simp [behind]

theorem filterName_agrees (suffix : rest <:+ text) :
    Agrees text rest (filterName text (place text rest)) (readFilterName rest) :=
  run_agrees (by simp) suffix

def readBracketedName (input : List Char) : Except Stop (String × List Char) :=
  match Query.skipSpaces input with
  | c :: inner =>
    if isQuote c then do
      let (name, rest) ← readQuoted c [] inner
      let rest ← Query.expect ']' (Query.skipSpaces rest)
      return (name, rest)
    else stop .expectedFilterName (c :: inner)
  | [] => stop .expectedFilterName []

theorem readField_bracket (fuel : Nat) (rest : List Char) :
    readField (fuel + 1) ('[' :: rest) = do
      let (name, rest) ← readBracketedName rest
      let (names, rest) ← readField fuel rest
      return (name :: names, rest) := by
  rw [readField, readBracketedName]
  cases Query.skipSpaces rest with
  | nil => rfl
  | cons c inner =>
    by_cases quote : isQuote c = true
    · simp only [quote, reduceIte, bind_assoc, pure_bind]
    · simp only [quote]
      rfl

theorem bracketedName_agrees (suffix : rest <:+ text) :
    Agrees text rest (bracketedName text (place text rest)) (readBracketedName rest) := by
  have spaces := spaces_suffix rest
  rw [bracketedName, skipSpaces_bind _ suffix, readBracketedName]
  generalize Query.skipSpaces rest = ahead at spaces ⊢
  have aheadSuffix := spaces.trans suffix
  refine .mono ?_ spaces
  by_cases starts : ∃ c ∈ ahead.head?, isQuote c = true
  · obtain ⟨quote, first, isQuoted⟩ := starts
    obtain ⟨inner, rfl⟩ := List.head?_eq_some_iff.mp first
    have further := List.suffix_cons quote inner
    rw [peekQuote_bind_quote isQuoted _ aheadSuffix]
    simp only [isQuoted, reduceIte]
    refine .mono (.bind (quoted_agrees (ascii_of_isQuote isQuoted) aheadSuffix)
      fun name left more => ?_) further
    have leftSuffix := more.trans (further.trans aheadSuffix)
    have moreSpaces := spaces_suffix left
    dsimp only
    rw [skipSpaces_bind _ leftSuffix]
    refine .mono (expect_agrees (by decide) (moreSpaces.trans leftSuffix)
      fun after last => ?_) moreSpaces
    exact .read name (List.suffix_refl _)
  · have noQuote : Stops isQuote ahead := by simpa [Stops] using starts
    rw [peekQuote_bind_none noQuote _ aheadSuffix]
    cases ahead with
    | nil => exact .fault .expectedFilterName (List.suffix_refl _)
    | cons c inner =>
      have other : isQuote c = false := noQuote c rfl
      simp only [other, Bool.false_eq_true, reduceIte]
      exact .fault .expectedFilterName (List.suffix_refl _)

theorem gather_agrees {round : List α → Reader (Round (List α) (List α))} {before : List α}
    {read : Except Stop (α × List Char)} (suffix : rest <:+ text)
    (step : Agrees text rest (round before (place text rest))
      (read.map fun (item, left) => (.again (before ++ [item]), left)))
    (others : List Char → Except Stop (List α × List Char))
    (shorter : ∀ item left, read = .ok (item, left) → left.length < rest.length)
    (goesOn : ∀ item left, read = .ok (item, left) → left <:+ rest →
      Agrees text left (loop text round (before ++ [item]) (place text left))
        (behind (before ++ [item]) (others left))) :
    Agrees text rest (loop text round before (place text rest))
      (behind before do
        let (item, left) ← read
        let (items, left) ← others left
        return (item :: items, left)) := by
  rw [loop_at, bind_at]
  generalize round before (place text rest) = found at step
  cases read with
  | error stop =>
    cases step with
    | halted _ further => exact .halted stop further
  | ok result =>
    obtain ⟨item, left⟩ := result
    cases step with
    | read _ further =>
      rw [Fallible.ok_bind, Fallible.ok_bind, behind_cons]
      dsimp only
      rw [proceed_again _ suffix further (shorter item left rfl)]
      exact (goesOn item left rfl further).mono further

theorem fieldLoop_agrees {fuel : Nat} (enough : rest.length ≤ fuel) (names : List String)
    (suffix : rest <:+ text) :
    Agrees text rest (loop text (fieldRound text) names (place text rest))
      (behind names (readField fuel rest)) := by
  induction fuel generalizing rest names with
  | zero =>
    obtain rfl := List.length_eq_zero_iff.mp (Nat.le_zero.mp enough)
    rw [loop_at, fieldRound, bind_assoc, peek_bind _ suffix, readField, behind_nil]
    exact .read names (List.suffix_refl _)
  | succ fuel ih =>
    -- Behind a name the field goes on in a rest for which the fuel suffices.
    have goesOn {c : Char} {after : List Char} (split : rest = c :: after)
        {reader : Reader String} {read : Except Stop (String × List Char)}
        (nameRead : Agrees text after (reader (place text after)) read)
        (round : fieldRound text names (place text rest) =
          (reader >>= fun name => pure (.again (names ++ [name]))) (place text after)) :
        Agrees text rest (loop text (fieldRound text) names (place text rest))
          (behind names do
            let (name, left) ← read
            let (names, left) ← readField fuel left
            return (name :: names, left)) := by
      subst split
      have further := List.suffix_cons c after
      have inside {name : String} {left : List Char} (found : read = .ok (name, left)) :
          left <:+ after := (found ▸ nameRead).suffix
      refine gather_agrees suffix ?_ (readField fuel) (fun name left found => ?_)
        fun name left found more => ?_
      · rw [round]
        exact (nameRead.map fun name => Round.again (names ++ [name])).mono further
      · exact Nat.lt_succ_of_le (inside found).length_le
      · have shorter := (inside found).length_le
        exact ih (Nat.le_trans shorter (Nat.le_of_succ_le_succ enough)) _ (more.trans suffix)
    by_cases dot : rest.head? = some '.'
    · obtain ⟨after, rfl⟩ := List.head?_eq_some_iff.mp dot
      have afterSuffix := (List.suffix_cons _ after).trans suffix
      rw [readField]
      refine goesOn rfl (filterName_agrees afterSuffix) ?_
      rw [fieldRound, peek_bind _ suffix, if_pos (head?_encode_cons (by decide) _),
        advance_bind (by decide) _ suffix]
    by_cases bracket : rest.head? = some '['
    · obtain ⟨after, rfl⟩ := List.head?_eq_some_iff.mp bracket
      have afterSuffix := (List.suffix_cons _ after).trans suffix
      rw [readField_bracket]
      refine goesOn rfl (bracketedName_agrees afterSuffix) ?_
      rw [fieldRound, peek_bind _ suffix, if_neg (head?_encode_ne (by decide) dot),
        if_pos (head?_encode_cons (by decide) _), advance_bind (by decide) _ suffix]
    · have ends : readField (fuel + 1) rest = .ok ([], rest) := by
        unfold readField
        split
        · contradiction
        · exact absurd rfl dot
        · exact absurd rfl bracket
        · rfl
      rw [loop_at, fieldRound, bind_assoc, peek_bind _ suffix,
        if_neg (head?_encode_ne (by decide) dot),
        if_neg (head?_encode_ne (by decide) bracket), ends, behind_nil]
      exact .read names (List.suffix_refl _)

theorem test_agrees (suffix : rest <:+ text)
    {next : Option (Comparison × Literal) → Reader β}
    {follow : Option (Comparison × Literal) × List Char → Except Stop (β × List Char)}
    (others : ∀ found left, left <:+ rest →
      Agrees text left (next found (place text left)) (follow (found, left))) :
    Agrees text rest
      ((skipSpaces text >>= fun _ => test text >>= fun found => expect text ')' >>= fun _ =>
        next found) (place text rest))
      (readTest rest >>= follow) := by
  have spaces := spaces_suffix rest
  rw [skipSpaces_bind _ suffix, test, bind_assoc, peek_bind _ (spaces.trans suffix), readTest]
  generalize Query.skipSpaces rest = ahead at spaces ⊢
  have aheadSuffix := spaces.trans suffix
  refine .mono ?_ spaces
  by_cases close : ahead.head? = some ')'
  · obtain ⟨after, rfl⟩ := List.head?_eq_some_iff.mp close
    rw [if_pos (head?_encode_cons (by decide) _), pure_bind_at]
    have closed : Agrees text (')' :: after)
        ((expect text ')' >>= fun _ => next none) (place text (')' :: after)))
        (Query.expect ')' (')' :: after) >>= fun left => follow (none, left)) :=
      expect_agrees (by decide) aheadSuffix fun left more => others none left (more.trans spaces)
    rw [expect_cons] at closed
    exact closed
  · rw [if_neg (head?_encode_ne (by decide) close)]
    split
    · exact absurd rfl close
    simp only [bind_assoc]
    refine .bind (comparison_agrees aheadSuffix) fun comparison left more => ?_
    have leftSuffix := more.trans aheadSuffix
    have moreSpaces := spaces_suffix left
    dsimp only
    rw [skipSpaces_bind _ leftSuffix]
    refine .mono (.bind (literal_agrees (moreSpaces.trans leftSuffix))
      fun literal after most => ?_) moreSpaces
    have afterSuffix := most.trans (moreSpaces.trans leftSuffix)
    have lastSpaces := spaces_suffix after
    dsimp only
    rw [skipSpaces_bind _ afterSuffix, pure_bind_at]
    refine .mono (expect_agrees (by decide) (lastSpaces.trans afterSuffix)
      fun last most' => ?_) lastSpaces
    exact others _ last (most'.trans (lastSpaces.trans (most.trans (moreSpaces.trans
      (more.trans spaces)))))

theorem filter_agrees (suffix : '?' :: rest <:+ text) :
    Agrees text rest (filter text (place text ('?' :: rest))) (readFilter rest) := by
  have restSuffix := (List.suffix_cons '?' rest).trans suffix
  have spaces := spaces_suffix rest
  rw [filter, advance_bind (by decide) _ suffix, skipSpaces_bind _ restSuffix, readFilter]
  refine .mono (expect_agrees (by decide) (spaces.trans restSuffix) fun left more => ?_) spaces
  have leftSuffix := more.trans (spaces.trans restSuffix)
  have moreSpaces := spaces_suffix left
  rw [skipSpaces_bind _ leftSuffix]
  refine .mono (expect_agrees (by decide) (moreSpaces.trans leftSuffix)
    fun after most => ?_) moreSpaces
  have afterSuffix := most.trans (moreSpaces.trans leftSuffix)
  have fieldRead := fieldLoop_agrees (Nat.le_refl after.length) [] afterSuffix
  rw [behind_empty] at fieldRead
  refine .bind fieldRead fun field last further => ?_
  exact test_agrees (further.trans afterSuffix) fun found _ _ => .read _ (List.suffix_refl _)

theorem item_bare (noQuote : Stops isQuote rest) (suffix : rest <:+ text) :
    item text (place text rest) = bareItem text (place text rest) :=
  peekQuote_bind_none noQuote _ suffix

theorem item_agrees (suffix : rest <:+ text) :
    Agrees text rest (item text (place text rest)) (readItem rest) := by
  fun_cases readItem rest with
  | case1 =>
    rw [item_bare (stops_nil isQuote) suffix, bareItem, peek_bind _ suffix]
    exact .fault .openBracket (List.suffix_refl _)
  | case2 rest =>
    rw [item_bare (stops_cons (by decide) rest) suffix, bareItem, peek_bind _ suffix,
      if_pos (head?_encode_cons (by decide) _), advance_bind (by decide) _ suffix]
    exact .read Selector.wildcard (List.suffix_cons _ rest)
  | case3 rest =>
    rw [item_bare (stops_cons (by decide) rest) suffix, bareItem, peek_bind _ suffix,
      if_neg (head?_encode_ne (by decide) (by simp)), if_pos (head?_encode_cons (by decide) _)]
    exact (filter_agrees suffix).mono (List.suffix_cons _ rest)
  | case4 rest =>
    rw [item_bare (stops_cons (by decide) rest) suffix, bareItem, peek_bind _ suffix,
      if_neg (head?_encode_ne (by decide) (by simp)),
      if_neg (head?_encode_ne (by decide) (by simp)),
      if_pos (head?_encode_cons (by decide) _)]
    exact .fault .script (List.suffix_refl _)
  | case5 c rest noStar noFilter noScript quote =>
    rw [item, peekQuote_bind_quote quote _ suffix]
    exact ((quoted_agrees (ascii_of_isQuote quote) suffix).map Selector.name).mono
      (List.suffix_cons c rest)
  | case6 c rest noStar noFilter noScript noQuote =>
    rw [item_bare (stops_cons (by simpa using noQuote) rest) suffix, bareItem, peek_bind _ suffix,
      if_neg (head?_encode_ne (by decide) (by simpa using noStar)),
      if_neg (head?_encode_ne (by decide) (by simpa using noFilter)),
      if_neg (head?_encode_ne (by decide) (by simpa using noScript)),
      if_neg (head?_encode_cons_ne_none c rest)]
    exact indexOrSlice_agrees suffix

theorem bracketLoop_agrees {fuel : Nat} (enough : rest.length < fuel) (items : List Selector)
    (suffix : rest <:+ text) :
    Agrees text rest (loop text (bracketRound text) items (place text rest))
      (behind items (readItems fuel rest)) := by
  induction fuel generalizing rest items with
  | zero => cases enough
  | succ fuel ih =>
    have spaces := spaces_suffix rest
    rw [loop_at, bracketRound]
    simp only [bind_assoc]
    rw [skipSpaces_bind _ suffix, readItems, behind_bind]
    refine .mono (.bind (item_agrees (spaces.trans suffix)) fun item left more => ?_) spaces
    have leftSuffix := more.trans (spaces.trans suffix)
    have moreSpaces := spaces_suffix left
    dsimp only
    rw [skipSpaces_bind _ leftSuffix, peek_bind _ (moreSpaces.trans leftSuffix)]
    generalize Query.skipSpaces left = ahead at moreSpaces ⊢
    have aheadSuffix := moreSpaces.trans leftSuffix
    have aheadFurther := moreSpaces.trans (more.trans spaces)
    refine .mono ?_ moreSpaces
    by_cases comma : ahead.head? = some ','
    · obtain ⟨after, rfl⟩ := List.head?_eq_some_iff.mp comma
      have further := List.suffix_cons ',' after
      have shorter := aheadFurther.length_le
      rw [List.length_cons] at shorter
      rw [if_pos (head?_encode_cons (by decide) _), bind_assoc,
        advance_bind (by decide) _ aheadSuffix, pure_bind_at,
        proceed_again _ suffix (further.trans aheadFurther) (by omega)]
      simp only [behind_cons]
      exact (ih (by omega) _ (further.trans aheadSuffix)).mono further
    rw [if_neg (head?_encode_ne (by decide) comma)]
    by_cases close : ahead.head? = some ']'
    · obtain ⟨after, rfl⟩ := List.head?_eq_some_iff.mp close
      rw [if_pos (head?_encode_cons (by decide) _), bind_assoc,
        advance_bind (by decide) _ aheadSuffix, pure_bind_at]
      exact .read (items ++ [item]) (List.suffix_cons ']' after)
    rw [if_neg (head?_encode_ne (by decide) close)]
    cases ahead with
    | nil => exact .fault .openBracket (List.suffix_refl _)
    | cons c after =>
      rw [if_neg (head?_encode_cons_ne_none c after)]
      split
      case h_1 same => exact absurd (congrArg List.head? same) comma
      case h_2 same => exact absurd (congrArg List.head? same) close
      case h_3 same => cases same
      case h_4 => exact .fault .expectedSeparator (List.suffix_refl _)

theorem bracket_agrees {c : Char} (ascii : c.toNat < 0x80) (suffix : c :: rest <:+ text) :
    Agrees text rest (bracket text (place text (c :: rest))) (readBracket rest) := by
  have restSuffix := (List.suffix_cons c rest).trans suffix
  have itemsRead := bracketLoop_agrees (Nat.lt_succ_self rest.length) [] restSuffix
  rw [behind_empty] at itemsRead
  rw [bracket, advance_bind ascii _ suffix]
  exact itemsRead.map Selector.ofItems

theorem dotted_agrees (suffix : rest <:+ text) :
    Agrees text rest (dotted text (place text rest)) (readDotted rest) := by
  rw [dotted, peek_bind _ suffix]
  fun_cases readDotted rest with
  | case1 rest =>
    rw [if_pos (head?_encode_cons (by decide) _), advance_bind (by decide) _ suffix]
    exact .read Selector.wildcard (List.suffix_cons _ rest)
  | case2 rest noStar =>
    have nameRead : Agrees text rest (name text (place text rest)) (readName rest) :=
      run_agrees (by simp) suffix
    rw [if_neg (head?_encode_ne (by decide) (head?_ne noStar))]
    exact nameRead.map Selector.name

theorem descendants_bracket (suffix : '[' :: rest <:+ text) :
    Agrees text rest (descendants text (place text ('[' :: rest))) (readBracket rest) := by
  rw [descendants, peek_bind _ suffix, if_pos (head?_encode_cons (by decide) _)]
  exact bracket_agrees (by decide) suffix

theorem descendants_dotted (noBracket : rest.head? ≠ some '[') (suffix : rest <:+ text) :
    Agrees text rest (descendants text (place text rest)) (readDotted rest) := by
  rw [descendants, peek_bind _ suffix, if_neg (head?_encode_ne (by decide) noBracket)]
  exact dotted_agrees suffix

theorem again_segment (segments : List Segment) (make : Selector → Segment)
    (read : Except Stop (Selector × List Char)) :
    ((read.map fun (selector, left) => (make selector, left)).map fun (segment, left) =>
        ((.again (segments ++ [segment]) : Round (List Segment) (List Segment)), left)) =
      read.map fun (selector, left) => (.again (segments ++ [make selector]), left) := by
  cases read <;> rfl

theorem segmentRound_agrees (segments : List Segment) (someChar : rest ≠ [])
    (suffix : rest <:+ text) :
    Agrees text rest (segmentRound text segments (place text rest))
      ((readSegment rest).map fun (segment, left) => (.again (segments ++ [segment]), left)) := by
  rw [segmentRound, peek_bind _ suffix, peekAt_bind 1 _ suffix]
  fun_cases readSegment rest with
  | case1 rest =>
    have dots := List.suffix_append ['.', '.'] ('[' :: rest)
    rw [if_pos ((starts_with_two_iff (by decide) (by decide) _).mpr ⟨_, rfl⟩),
      advance_two_bind (by decide) (by decide) _ suffix, again_segment]
    exact ((descendants_bracket (dots.trans suffix)).map _).mono
      ((List.suffix_cons '[' rest).trans dots)
  | case2 rest noBracket =>
    have dots := List.suffix_append ['.', '.'] rest
    rw [if_pos ((starts_with_two_iff (by decide) (by decide) _).mpr ⟨_, rfl⟩),
      advance_two_bind (by decide) (by decide) _ suffix, again_segment]
    exact ((descendants_dotted (head?_ne noBracket) (dots.trans suffix)).map _).mono dots
  | case3 rest noBrackets noDot =>
    have dot := List.suffix_cons '.' rest
    rw [if_neg (mt (starts_with_two_iff (by decide) (by decide) _).mp (by simpa using noDot)),
      if_pos (head?_encode_cons (by decide) _), advance_bind (by decide) _ suffix, again_segment]
    exact ((dotted_agrees (dot.trans suffix)).map _).mono dot
  | case4 rest =>
    rw [if_neg (mt (starts_with_two_iff (by decide) (by decide) _).mp (by simp)),
      if_neg (head?_encode_ne (by decide) (by simp)),
      if_pos (head?_encode_cons (by decide) _), again_segment]
    exact ((bracket_agrees (by decide) suffix).map _).mono (List.suffix_cons '[' rest)
  | case5 c rest _ _ noDot noBracket =>
    have noDots : ¬∃ left, c :: rest = '.' :: '.' :: left := by
      rintro ⟨left, same⟩
      exact noDot (List.cons.inj same).1
    rw [if_neg (mt (starts_with_two_iff (by decide) (by decide) _).mp noDots),
      if_neg (head?_encode_ne (by decide) (by simpa using noDot)),
      if_neg (head?_encode_ne (by decide) (by simpa using noBracket)),
      if_neg (head?_encode_cons_ne_none c rest), get_bind, slice_ahead_bind _ suffix]
    exact .fault (.unexpected c) (List.suffix_refl _)
  | case6 => exact absurd rfl someChar

theorem readSegments_cons (fuel : Nat) (c : Char) (rest : List Char) :
    ((readSegments (fuel + 1) (c :: rest)).map fun more => (more, ([] : List Char))) = (do
      let (segment, left) ← readSegment (c :: rest)
      let (more, left) ← (readSegments fuel left).map fun more => (more, ([] : List Char))
      return (segment :: more, left)) := by
  simp only [readSegments]
  cases readSegment (c :: rest) with
  | error stop => rfl
  | ok result =>
    obtain ⟨segment, left⟩ := result
    simp only [Fallible.ok_bind]
    cases readSegments fuel left <;> rfl

theorem segmentLoop_agrees {fuel : Nat} (enough : rest.length ≤ fuel) (segments : List Segment)
    (suffix : rest <:+ text) :
    Agrees text rest (loop text (segmentRound text) segments (place text rest))
      (behind segments ((readSegments fuel rest).map fun more => (more, []))) := by
  induction fuel generalizing rest segments with
  | zero =>
    obtain rfl := List.length_eq_zero_iff.mp (Nat.le_zero.mp enough)
    rw [loop_at, segmentRound, bind_assoc, peek_bind _ suffix, readSegments, Fallible.ok_map,
      behind_nil]
    exact .read segments (List.suffix_refl _)
  | succ fuel ih =>
    cases rest with
    | nil =>
      rw [loop_at, segmentRound, bind_assoc, peek_bind _ suffix, readSegments, Fallible.ok_map,
        behind_nil]
      exact .read segments (List.suffix_refl _)
    | cons c rest =>
      have shorter {segment : Segment} {left : List Char}
          (found : readSegment (c :: rest) = .ok (segment, left)) :
          left.length < (c :: rest).length := by
        obtain ⟨taken, someTaken, split, -⟩ := readSegment_append found
        have taking := List.length_pos_iff.mpr someTaken
        rw [split, List.length_append]
        omega
      rw [readSegments_cons]
      refine gather_agrees suffix (segmentRound_agrees segments (List.cons_ne_nil _ _) suffix)
        (fun left => (readSegments fuel left).map fun more => (more, []))
        (fun segment left => shorter) fun segment left found further => ?_
      have less := shorter found
      exact ih (by omega) _ (further.trans suffix)

theorem readPath_root (rest : List Char) :
    ((readPath ('$' :: rest)).map fun path => (path, ([] : List Char))) =
      ((readSegments rest.length rest).map fun more => (more, [])).map
        fun (segments, left) => ({ segments }, left) := by
  rw [readPath]
  cases readSegments rest.length rest <;> rfl

theorem path_agrees (text : List Char) :
    Agrees text text (path text 0) ((readPath text).map fun path => (path, [])) := by
  have suffix := List.suffix_refl text
  rw [← place_self text, path, peek_bind _ suffix]
  by_cases root : text.head? = some '$'
  · obtain ⟨rest, rfl⟩ := List.head?_eq_some_iff.mp root
    have restSuffix := (List.suffix_cons '$' rest).trans suffix
    have segmentsRead := segmentLoop_agrees (Nat.le_refl rest.length) [] restSuffix
    rw [behind_empty] at segmentsRead
    rw [if_pos (head?_encode_cons (by decide) _), advance_bind (by decide) _ suffix, readPath_root]
    exact (segmentsRead.map fun segments => ({ segments } : Path)).mono (List.suffix_cons '$' rest)
  · have noRoot : readPath text = stop .noRoot text := by
      unfold readPath
      split
      · exact absurd rfl root
      · rfl
    rw [if_neg (head?_encode_ne (by decide) root), noRoot]
    exact .halted ⟨.noRoot, text⟩ suffix

/-- A fault at a place of a text that lies between characters. -/
structure Within (text : List Char) (fault : Error) : Prop where
  input : fault.input = .ofList text
  inside : fault.offset ≤ Utf8.size text
  boundary : isBoundary text fault.offset = true
  place : ∃ before after, text = before ++ after ∧ fault.offset = Utf8.size before

theorem Within.toError {text : List Char} {stop : Stop} (suffix : stop.rest <:+ text) :
    Within text (stop.toError text) where
  input := rfl
  inside := place_le text stop.rest
  boundary := isBoundary_place suffix
  place := by
    obtain ⟨before, rfl⟩ := suffix
    exact ⟨before, stop.rest, rfl, place_append before stop.rest⟩

/-- Read with a cursor a path is what it is read as by characters. So no text is a trap: the cursor
stays in the text, cuts no character and moves ahead in every round of a loop. Every fault tells
the trimmed text and a place in it that lies between characters. -/
theorem parse_safe (text : String) :
    parse text = (Path.parse text).mapError .fault ∧
      (∀ trap, parse text ≠ .error (.trap trap)) ∧
      ∀ fault, Path.parse text = .error fault → Within (Text.trim text.toList) fault := by
  have agrees := path_agrees (Text.trim text.toList)
  rw [parse, Path.parse]
  generalize path (Text.trim text.toList) 0 = found at agrees
  cases read : readPath (Text.trim text.toList) with
  | error stop =>
    rw [read] at agrees
    cases agrees with
    | halted _ suffix =>
      refine ⟨rfl, fun trap trapped => ?_, fun fault halted => ?_⟩
      · cases trapped
      · cases halted
        exact .toError suffix
  | ok path =>
    rw [read] at agrees
    cases agrees
    refine ⟨rfl, fun trap trapped => ?_, fun fault halted => ?_⟩
    · cases trapped
    · cases halted

def openEscape : String := "\u3000$.straße['größe\\ "

def openEscapeFault : Error where
  input := "$.straße['größe\\"
  offset := 19
  reason := .openQuote

theorem parse_safe_openEscape :
    parse openEscape = .error (.fault openEscapeFault) ∧
      Within (Text.trim openEscape.toList) openEscapeFault := by
  have found : Path.parse openEscape = .error openEscapeFault := rfl
  obtain ⟨same, -, within⟩ := parse_safe openEscape
  rw [found] at same
  exact ⟨same, within _ found⟩

end Reconcile.Query.Cursor
