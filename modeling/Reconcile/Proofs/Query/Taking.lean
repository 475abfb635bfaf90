import Reconcile.Proofs.Query.Reading

namespace Reconcile.Query

open Text

variable {α : Type} {input rest : List Char}

/-- The reader takes a part of the input, and the same of every text that goes on with the same
character. -/
def Takes (read : Parse α) (input : List Char) (result : α) (rest : List Char) : Prop :=
  ∃ taken, input = taken ++ rest ∧
    ∀ others, others.head? = rest.head? → read (taken ++ others) = .ok (result, others)

/-- The reader takes a part of the input, and the same whatever follows it. -/
def Closes (read : Parse α) (input : List Char) (result : α) (rest : List Char) : Prop :=
  ∃ taken, input = taken ++ rest ∧ ∀ others, read (taken ++ others) = .ok (result, others)

theorem Closes.takes {read : Parse α} {result : α} (closes : Closes read input result rest) :
    Takes read input result rest := by
  obtain ⟨taken, split, again⟩ := closes
  exact ⟨taken, split, fun others _ => again others⟩

theorem head?_append_congr {others : List Char} (same : others.head? = rest.head?)
    (taken : List Char) : (taken ++ others).head? = (taken ++ rest).head? := by
  cases taken with
  | nil => exact same
  | cons c taken => rfl

theorem stops_of_head? {kind : Char → Bool} {others : List Char} (stops : Stops kind rest)
    (same : others.head? = rest.head?) : Stops kind others := by
  intro c first
  exact stops c (same ▸ first)

theorem skipSpaces_of_stops (stops : Stops (· == ' ') rest) : skipSpaces rest = rest := by
  cases rest with
  | nil => rfl
  | cons c rest =>
    have other : (c == ' ') = false := stops c rfl
    simp [skipSpaces, other]

theorem skipSpaces_takes (input : List Char) :
    ∃ spaces rest, input = spaces ++ rest ∧ skipSpaces input = rest ∧
      ∀ others, others.head? = rest.head? → skipSpaces (spaces ++ others) = others := by
  obtain ⟨split, all, stops⟩ := of_span (List.span_eq_takeWhile_dropWhile (· == ' ') input)
  refine ⟨_, _, split, rfl, fun others same => ?_⟩
  rw [skipSpaces, List.dropWhile_append_of_pos all]
  exact skipSpaces_of_stops (stops_of_head? stops same)

theorem of_readRun {ends : List Char} {name : String}
    (found : readRun ends input = .ok (name, rest)) :
    input = name.toList ++ rest ∧ name.toList ≠ [] ∧
      (∀ c ∈ name.toList, (!ends.contains c) = true) ∧ Stops (fun c => !ends.contains c) rest := by
  unfold readRun at found
  split at found
  · cases found
  · rename_i run after notEmpty spanned
    cases found
    obtain ⟨split, all, stops⟩ := of_span spanned
    rw [String.toList_ofList]
    exact ⟨split, notEmpty, all, stops⟩

theorem readRun_append {ends : List Char} {name : List Char} (someName : name ≠ [])
    (all : ∀ c ∈ name, (!ends.contains c) = true) (stops : Stops (fun c => !ends.contains c) rest) :
    readRun ends (name ++ rest) = .ok (.ofList name, rest) := by
  have spanned := span_append all stops
  obtain ⟨c, others, rfl⟩ := List.exists_cons_of_ne_nil someName
  rw [readRun, spanned]

theorem readRun_takes {ends : List Char} {name : String}
    (found : readRun ends input = .ok (name, rest)) : Takes (readRun ends) input name rest := by
  obtain ⟨split, someName, all, stops⟩ := of_readRun found
  refine ⟨name.toList, split, fun others same => ?_⟩
  rw [readRun_append someName all (stops_of_head? stops same), String.ofList_toList]

theorem readQuoted_closes {quote : Char} {before : List Char} {name : String}
    (found : readQuoted quote before input = .ok (name, rest)) :
    Closes (readQuoted quote before) input name rest := by
  have plain {c : Char} {after : List Char} (noEnd : c = '\\' → after = [] → False)
      (noEscape : ∀ d others, c = '\\' → after = d :: others → False) : c ≠ '\\' := by
    intro escape
    cases after with
    | nil => exact noEnd escape rfl
    | cons d others => exact noEscape d others escape rfl
  fun_induction readQuoted quote before input with
  | case1 => cases found
  | case2 => cases found
  | case3 before c after ih =>
    obtain ⟨taken, split, again⟩ := ih found
    exact ⟨'\\' :: c :: taken, by rw [split]; rfl, again⟩
  | case4 before after noEnd noEscape =>
    cases found
    refine ⟨[quote], rfl, fun others => ?_⟩
    rw [List.singleton_append, readQuoted_cons (plain noEnd noEscape), if_pos rfl]
  | case5 before c after noEnd noEscape goesOn ih =>
    obtain ⟨taken, split, again⟩ := ih found
    refine ⟨c :: taken, by rw [split]; rfl, fun others => ?_⟩
    rw [List.cons_append, readQuoted_cons (plain noEnd noEscape), if_neg goesOn, again]

theorem expect_closes {c : Char} (found : expect c input = .ok rest) : input = c :: rest := by
  unfold expect at found
  split at found
  · split at found
    · rename_i same
      cases found
      rw [same]
    · cases found
  · cases found

theorem readInteger_minus {digits : List Char} (all : ∀ c ∈ digits, c.isDigit = true)
    (stops : Stops Char.isDigit rest) :
    readInteger ('-' :: (digits ++ rest)) =
      if digits = [] then stop .expectedDigits rest
      else if decimalValue digits ≤ twoTo 63 then .ok (some (-(decimalValue digits : Int)), rest)
      else stop .indexTooSmall ('-' :: (digits ++ rest)) := by
  have spanned := span_append all stops
  simp only [readInteger, spanned]
  cases digits <;> simp

theorem readInteger_digits {digits : List Char} (all : ∀ c ∈ digits, c.isDigit = true)
    (stops : Stops Char.isDigit rest) (noSign : (digits ++ rest).head? ≠ some '-') :
    readInteger (digits ++ rest) =
      if digits = [] then .ok (none, rest)
      else if decimalValue digits < twoTo 63 then .ok (some (decimalValue digits : Int), rest)
      else stop .indexTooLarge (digits ++ rest) := by
  have spanned := span_append all stops
  unfold readInteger
  split
  rename_i negative unsigned sign
  split at sign
  · rename_i after isMinus
    rw [isMinus] at noSign
    exact absurd rfl noSign
  · cases sign
    simp only [spanned]
    cases digits <;> simp

theorem readInteger_takes {bound : Option Int} (found : readInteger input = .ok (bound, rest)) :
    Takes readInteger input bound rest := by
  have digitsOf (text : List Char) : ∃ digits after, text = digits ++ after ∧
      (∀ c ∈ digits, c.isDigit = true) ∧ Stops Char.isDigit after :=
    ⟨_, _, of_span (List.span_eq_takeWhile_dropWhile Char.isDigit text)⟩
  by_cases sign : input.head? = some '-'
  · obtain ⟨unsigned, rfl⟩ := List.head?_eq_some_iff.mp sign
    obtain ⟨digits, after, rfl, all, stops⟩ := digitsOf unsigned
    rw [readInteger_minus all stops] at found
    split at found
    · cases found
    · rename_i someDigit
      split at found <;> cases found
      rename_i small
      refine ⟨'-' :: digits, rfl, fun others same => ?_⟩
      rw [List.cons_append, readInteger_minus all (stops_of_head? stops same), if_neg someDigit,
        if_pos small]
  · obtain ⟨digits, after, rfl, all, stops⟩ := digitsOf input
    rw [readInteger_digits all stops sign] at found
    split at found
    · rename_i noDigit
      cases found
      subst noDigit
      refine ⟨[], rfl, fun others same => ?_⟩
      rw [readInteger_digits all (stops_of_head? stops same) (by rwa [head?_append_congr same]),
        if_pos rfl]
    · rename_i someDigit
      split at found <;> cases found
      rename_i small
      refine ⟨digits, rfl, fun others same => ?_⟩
      rw [readInteger_digits all (stops_of_head? stops same) (by rwa [head?_append_congr same]),
        if_neg someDigit, if_pos small]

theorem noHead_congr {c : Char} {others : List Char} (same : others.head? = rest.head?)
    (other : ∀ after, rest = c :: after → False) (after : List Char) : others ≠ c :: after := by
  rintro rfl
  obtain ⟨left, split⟩ := List.head?_eq_some_iff.mp same.symm
  exact other left split

theorem readIndexOrSlice_takes {item : Selector}
    (found : readIndexOrSlice input = .ok (item, rest)) :
    Takes readIndexOrSlice input item rest := by
  rw [readIndexOrSlice, Fallible.bind_eq_ok_iff] at found
  obtain ⟨⟨start, middle⟩, first, found⟩ := found
  obtain ⟨digits, rfl, firstAgain⟩ := readInteger_takes first
  obtain ⟨spaces, behind, rfl, skipped, spacesAgain⟩ := skipSpaces_takes middle
  simp only [skipped] at found
  split at found
  · rename_i start after
    rw [Fallible.bind_eq_ok_iff] at found
    obtain ⟨⟨last, left⟩, second, found⟩ := found
    obtain ⟨moreSpaces, bound, rfl, moreSkipped, moreAgain⟩ := skipSpaces_takes after
    rw [moreSkipped] at second
    obtain ⟨lastDigits, rfl, secondAgain⟩ := readInteger_takes second
    obtain ⟨lastSpaces, stopped, rfl, lastSkipped, lastAgain⟩ := skipSpaces_takes left
    simp only [lastSkipped] at found
    split at found
    · cases found
    · rename_i noStep
      cases found
      refine ⟨digits ++ spaces ++ ':' :: (moreSpaces ++ (lastDigits ++ lastSpaces)), by simp, ?_⟩
      intro others same
      have lastRead := secondAgain (lastSpaces ++ others) (head?_append_congr same _)
      have moreRead := moreAgain (lastDigits ++ (lastSpaces ++ others))
        (head?_append_congr (head?_append_congr same _) _)
      have startRead := firstAgain
        (spaces ++ ':' :: (moreSpaces ++ (lastDigits ++ (lastSpaces ++ others)))) (by simp)
      have colonRead :=
        spacesAgain (':' :: (moreSpaces ++ (lastDigits ++ (lastSpaces ++ others)))) rfl
      simp [readIndexOrSlice, startRead, colonRead, moreRead, lastRead, lastAgain others same,
        noHead_congr same noStep]
  · rename_i position noColon
    cases found
    refine ⟨digits ++ spaces, by simp, fun others same => ?_⟩
    have startRead := firstAgain (spaces ++ others) (head?_append_congr same _)
    simp [readIndexOrSlice, startRead, spacesAgain others same, noHead_congr same noColon]
  · cases found

theorem readComparison_takes {comparison : Comparison}
    (found : readComparison input = .ok (comparison, rest)) :
    Takes readComparison input comparison rest := by
  unfold readComparison at found
  split at found
  case h_1 => cases found; exact Closes.takes ⟨['=', '='], rfl, fun _ => rfl⟩
  case h_2 => cases found; exact Closes.takes ⟨['!', '='], rfl, fun _ => rfl⟩
  case h_3 => cases found; exact Closes.takes ⟨['<', '='], rfl, fun _ => rfl⟩
  case h_4 => cases found; exact Closes.takes ⟨['>', '='], rfl, fun _ => rfl⟩
  case h_5 noEqual =>
    cases found
    refine ⟨['<'], rfl, fun others same => ?_⟩
    simp [readComparison, noHead_congr same fun after equal => noEqual after (equal ▸ rfl)]
  case h_6 noEqual =>
    cases found
    refine ⟨['>'], rfl, fun others same => ?_⟩
    simp [readComparison, noHead_congr same fun after equal => noEqual after (equal ▸ rfl)]
  case h_7 => cases found

theorem readLiteral_takes {literal : Literal} (found : readLiteral input = .ok (literal, rest)) :
    Takes readLiteral input literal rest := by
  by_cases quoted : ∃ c ∈ input.head?, isQuote c = true
  · obtain ⟨c, first, isQuoted⟩ := quoted
    obtain ⟨input, rfl⟩ := List.head?_eq_some_iff.mp first
    simp only [readLiteral, isQuoted, if_true] at found
    obtain ⟨⟨text, after⟩, textRead, same⟩ := (Fallible.map_eq_ok_iff _ _ _).mp found
    cases same
    obtain ⟨taken, rfl, again⟩ := readQuoted_closes textRead
    refine Closes.takes ⟨c :: taken, rfl, fun others => ?_⟩
    simp [readLiteral, isQuoted, again]
  · have noQuote : Stops isQuote input := fun c first =>
      Bool.eq_false_iff.mpr fun isQuoted => quoted ⟨c, first, isQuoted⟩
    obtain ⟨split, all, stops⟩ := of_span (List.span_eq_takeWhile_dropWhile inWord input)
    generalize input.takeWhile inWord = word at split all
    generalize input.dropWhile inWord = after at split stops
    subst split
    rw [readLiteral_word noQuote all stops] at found
    cases denoted : bareLiteral? word with
    | none => simp [denoted, stop] at found
    | some literal =>
      simp only [denoted] at found
      cases found
      refine ⟨word, rfl, fun others same => ?_⟩
      have noQuoteAgain := stops_of_head? noQuote (head?_append_congr same word)
      rw [readLiteral_word noQuoteAgain all (stops_of_head? stops same), denoted]

theorem readField_takes {fuel : Nat} {field : List String}
    (found : readField fuel input = .ok (field, rest)) (ends : Stops startsMember rest) :
    ∃ taken, input = taken ++ rest ∧ field.length ≤ taken.length ∧
      ∀ others fuel, others.head? = rest.head? → field.length ≤ fuel →
        readField fuel (taken ++ others) = .ok (field, others) := by
  have noName (others : List Char) (fuel : Nat) (same : others.head? = rest.head?) :
      readField fuel others = .ok ([], others) :=
    readField_written [] (Nat.zero_le fuel) (stops_of_head? ends same)
  induction fuel generalizing input field with
  | zero =>
    cases found
    exact ⟨[], rfl, Nat.le_refl 0, fun others fuel same _ => noName others fuel same⟩
  | succ fuel ih =>
    unfold readField at found
    split at found
    case h_1 => contradiction
    case h_2 next input enough =>
      cases enough
      rw [Fallible.bind_eq_ok_iff] at found
      obtain ⟨⟨name, after⟩, nameRead, found⟩ := found
      rw [Fallible.bind_eq_ok_iff] at found
      obtain ⟨⟨names, left⟩, namesRead, found⟩ := found
      cases found
      obtain ⟨nameTaken, rfl, nameAgain⟩ := readRun_takes nameRead
      obtain ⟨taken, rfl, length, again⟩ := ih namesRead
      refine ⟨'.' :: (nameTaken ++ taken), by simp, ?_, ?_⟩
      · simp only [List.length_cons, List.length_append]
        omega
      · intro others fuel same enough
        obtain ⟨fuel, rfl⟩ := Nat.exists_eq_add_one_of_ne_zero (Nat.ne_zero_of_lt enough)
        have first := nameAgain (taken ++ others) (head?_append_congr same taken)
        have second := again others fuel same (Nat.le_of_succ_le_succ enough)
        rw [← readFilterName] at first
        simp only [List.cons_append, List.append_assoc, readField, first, second, Fallible.ok_bind,
          Fallible.pure_eq_ok]
    case h_3 next input enough =>
      cases enough
      obtain ⟨spaces, inside, rfl, skipped, spacesAgain⟩ := skipSpaces_takes input
      simp only [skipped] at found
      split at found
      · rename_i quote inner
        split at found
        · rename_i isQuoted
          simp only [Fallible.bind_eq_ok_iff] at found
          obtain ⟨⟨name, after⟩, nameRead, behind, closed, ⟨names, left⟩, namesRead, found⟩ := found
          cases found
          obtain ⟨nameTaken, rfl, nameAgain⟩ := readQuoted_closes nameRead
          obtain ⟨moreSpaces, bracket, rfl, moreSkipped, moreAgain⟩ := skipSpaces_takes after
          rw [moreSkipped] at closed
          obtain rfl := expect_closes closed
          obtain ⟨taken, rfl, length, again⟩ := ih namesRead
          refine ⟨'[' :: (spaces ++ quote :: (nameTaken ++ (moreSpaces ++ ']' :: taken))),
            by simp, ?_, ?_⟩
          · simp only [List.length_cons, List.length_append]
            omega
          · intro others fuel same enough
            obtain ⟨fuel, rfl⟩ := Nat.exists_eq_add_one_of_ne_zero (Nat.ne_zero_of_lt enough)
            have opened := spacesAgain
              (quote :: (nameTaken ++ (moreSpaces ++ ']' :: (taken ++ others)))) rfl
            have first := nameAgain (moreSpaces ++ ']' :: (taken ++ others))
            have closing := moreAgain (']' :: (taken ++ others)) rfl
            have second := again others fuel same (Nat.le_of_succ_le_succ enough)
            simp only [List.cons_append, List.append_assoc, readField, opened, isQuoted, if_true,
              first, closing, expect_cons, second, Fallible.ok_bind, Fallible.pure_eq_ok]
        · cases found
      · cases found
    case h_4 next input noDot noBracket =>
      cases found
      exact ⟨[], rfl, Nat.le_refl 0, fun others fuel same _ => noName others fuel same⟩

theorem stops_of_readTest {test : Option (Comparison × Literal)}
    (found : readTest input = .ok (test, rest)) : Stops startsMember input := by
  intro c first
  obtain ⟨after, rfl⟩ := List.head?_eq_some_iff.mp first
  rw [Bool.eq_false_iff]
  intro starts
  simp only [startsMember, Bool.or_eq_true, beq_iff_eq] at starts
  rcases starts with rfl | rfl <;> cases found

theorem readTest_closes {test : Option (Comparison × Literal)}
    (found : readTest input = .ok (test, rest)) : Closes readTest input test rest := by
  unfold readTest at found
  obtain ⟨spaces, after, rfl, skipped, spacesAgain⟩ := skipSpaces_takes input
  rw [skipped] at found
  split at found
  · cases found
    refine ⟨spaces ++ [')'], by simp, fun others => ?_⟩
    have closing := spacesAgain (')' :: others) rfl
    simp only [List.append_assoc, List.singleton_append, readTest, closing]
  · rename_i noEnd
    simp only [Fallible.bind_eq_ok_iff] at found
    obtain ⟨⟨comparison, afterOperator⟩, compared, ⟨literal, afterLiteral⟩, literalRead, behind,
      closed, found⟩ := found
    cases found
    obtain ⟨operator, rfl, operatorAgain⟩ := readComparison_takes compared
    obtain ⟨middle, operand, rfl, middleSkipped, middleAgain⟩ := skipSpaces_takes afterOperator
    rw [middleSkipped] at literalRead
    obtain ⟨literalTaken, rfl, literalAgain⟩ := readLiteral_takes literalRead
    obtain ⟨lastSpaces, bracket, rfl, lastSkipped, lastAgain⟩ := skipSpaces_takes afterLiteral
    rw [lastSkipped] at closed
    obtain rfl := expect_closes closed
    refine ⟨spaces ++ (operator ++ (middle ++ (literalTaken ++ (lastSpaces ++ [')'])))),
      by simp, fun others => ?_⟩
    have closing := lastAgain (')' :: others) rfl
    have literalNext := literalAgain (lastSpaces ++ ')' :: others) (by simp)
    have middleNext := middleAgain (literalTaken ++ (lastSpaces ++ ')' :: others)) (by simp)
    have operatorNext := operatorAgain
      (middle ++ (literalTaken ++ (lastSpaces ++ ')' :: others))) (by simp)
    have spacesNext := spacesAgain
      (operator ++ (middle ++ (literalTaken ++ (lastSpaces ++ ')' :: others)))) (by simp)
    simp only [List.append_assoc, List.cons_append, List.nil_append, readTest, spacesNext]
    split
    · rename_i head
      -- No operator is a closing parenthesis.
      rw [head] at operatorNext
      cases operatorNext
    · simp only [operatorNext, middleNext, literalNext, closing, expect_cons, Fallible.ok_bind,
        Fallible.pure_eq_ok]

theorem readFilter_closes {item : Selector} (found : readFilter input = .ok (item, rest)) :
    Closes readFilter input item rest := by
  simp only [readFilter, Fallible.bind_eq_ok_iff] at found
  obtain ⟨afterOpening, opening, afterRoot, root, ⟨field, afterField⟩, fieldRead,
    ⟨test, afterTest⟩, testRead, found⟩ := found
  cases found
  obtain ⟨spaces, bracket, rfl, skipped, spacesAgain⟩ := skipSpaces_takes input
  rw [skipped] at opening
  obtain rfl := expect_closes opening
  obtain ⟨middle, mark, rfl, middleSkipped, middleAgain⟩ := skipSpaces_takes afterOpening
  rw [middleSkipped] at root
  obtain rfl := expect_closes root
  obtain ⟨fieldTaken, rfl, length, fieldAgain⟩ :=
    readField_takes fieldRead (stops_of_readTest testRead)
  obtain ⟨testTaken, rfl, testAgain⟩ := readTest_closes testRead
  refine ⟨spaces ++ '(' :: (middle ++ '@' :: (fieldTaken ++ testTaken)), by simp, fun others => ?_⟩
  have opened := spacesAgain ('(' :: (middle ++ '@' :: (fieldTaken ++ (testTaken ++ others)))) rfl
  have rooted := middleAgain ('@' :: (fieldTaken ++ (testTaken ++ others))) rfl
  have fieldNext := fieldAgain (testTaken ++ others)
    (fieldTaken ++ (testTaken ++ others)).length ?_ ?_
  · simp only [List.append_assoc, List.cons_append, readFilter, opened, rooted, expect_cons,
      fieldNext, testAgain others, Fallible.ok_bind, Fallible.pure_eq_ok]
  · have someTest : testTaken ≠ [] := by
      rintro rfl
      cases testAgain []
    obtain ⟨c, testTaken, rfl⟩ := List.exists_cons_of_ne_nil someTest
    rfl
  · simp only [List.length_append]
    omega

theorem readItem_takes {item : Selector} (found : readItem input = .ok (item, rest)) :
    Takes readItem input item rest := by
  unfold readItem at found
  split at found
  · cases found
  · cases found
    exact Closes.takes ⟨['*'], rfl, fun _ => rfl⟩
  · obtain ⟨taken, rfl, again⟩ := readFilter_closes found
    exact Closes.takes ⟨'?' :: taken, rfl, again⟩
  · cases found
  · rename_i c after noWildcard noFilter noScript
    split at found
    · rename_i isQuoted
      obtain ⟨⟨name, left⟩, nameRead, same⟩ := (Fallible.map_eq_ok_iff _ _ _).mp found
      cases same
      obtain ⟨taken, rfl, again⟩ := readQuoted_closes nameRead
      refine Closes.takes ⟨c :: taken, rfl, fun others => ?_⟩
      simp [readItem, isQuoted, again]
    · rename_i noQuote
      obtain ⟨taken, split, again⟩ := readIndexOrSlice_takes found
      refine ⟨taken, split, fun others same => ?_⟩
      have head := head?_append_congr same taken
      rw [← split] at head
      obtain ⟨more, goesOn⟩ := List.head?_eq_some_iff.mp head
      have itemNext := again others same
      rw [goesOn] at itemNext ⊢
      simp [readItem, noQuote, itemNext]

theorem readItems_closes {fuel : Nat} {items : List Selector}
    (found : readItems fuel input = .ok (items, rest)) :
    ∃ taken, input = taken ++ rest ∧ items.length ≤ taken.length ∧
      ∀ others fuel, items.length ≤ fuel →
        readItems fuel (taken ++ others) = .ok (items, others) := by
  induction fuel generalizing input items with
  | zero => cases found
  | succ fuel ih =>
    rw [readItems, Fallible.bind_eq_ok_iff] at found
    obtain ⟨⟨item, after⟩, itemRead, found⟩ := found
    obtain ⟨spaces, start, rfl, skipped, spacesAgain⟩ := skipSpaces_takes input
    rw [skipped] at itemRead
    obtain ⟨itemTaken, rfl, itemAgain⟩ := readItem_takes itemRead
    obtain ⟨moreSpaces, separator, rfl, moreSkipped, moreAgain⟩ := skipSpaces_takes after
    simp only [moreSkipped] at found
    split at found
    · rename_i left
      rw [Fallible.bind_eq_ok_iff] at found
      obtain ⟨⟨others, last⟩, othersRead, found⟩ := found
      cases found
      obtain ⟨taken, rfl, length, again⟩ := ih othersRead
      refine ⟨spaces ++ (itemTaken ++ (moreSpaces ++ ',' :: taken)), by simp, ?_, ?_⟩
      · simp only [List.length_cons, List.length_append]
        omega
      · intro others fuel enough
        obtain ⟨fuel, rfl⟩ := Nat.exists_eq_add_one_of_ne_zero (Nat.ne_zero_of_lt enough)
        have comma := moreAgain (',' :: (taken ++ others)) rfl
        have itemNext := itemAgain (moreSpaces ++ ',' :: (taken ++ others)) (by simp)
        have start := spacesAgain (itemTaken ++ (moreSpaces ++ ',' :: (taken ++ others))) (by simp)
        have othersNext := again others fuel (Nat.le_of_succ_le_succ enough)
        simp only [List.append_assoc, List.cons_append, readItems, start, itemNext, comma,
          othersNext, Fallible.ok_bind, Fallible.pure_eq_ok]
    · cases found
      refine ⟨spaces ++ (itemTaken ++ (moreSpaces ++ [']'])), by simp, ?_, ?_⟩
      · simp only [List.length_cons, List.length_append]
        omega
      · intro others fuel enough
        obtain ⟨fuel, rfl⟩ := Nat.exists_eq_add_one_of_ne_zero (Nat.ne_zero_of_lt enough)
        have closing := moreAgain (']' :: others) rfl
        have itemNext := itemAgain (moreSpaces ++ ']' :: others) (by simp)
        have start := spacesAgain (itemTaken ++ (moreSpaces ++ ']' :: others)) (by simp)
        simp only [List.append_assoc, List.cons_append, List.nil_append, readItems, start, itemNext,
          closing, Fallible.ok_bind, Fallible.pure_eq_ok]
    · cases found
    · cases found

theorem readBracket_closes {selector : Selector}
    (found : readBracket input = .ok (selector, rest)) :
    Closes readBracket input selector rest := by
  obtain ⟨⟨items, left⟩, itemsRead, same⟩ := (Fallible.map_eq_ok_iff _ _ _).mp found
  cases same
  obtain ⟨taken, rfl, length, again⟩ := readItems_closes itemsRead
  refine ⟨taken, rfl, fun others => ?_⟩
  have enough : items.length ≤ (taken ++ others).length + 1 := by
    rw [List.length_append]
    omega
  rw [readBracket, again others _ enough, Fallible.ok_map]

theorem readBracket_item {item : Selector} (noSpace : skipSpaces input = input)
    (itemRead : readItem input = .ok (item, ']' :: rest)) :
    readBracket input = .ok (item, rest) := by
  simp [readBracket, readItems, noSpace, itemRead, Selector.ofItems]

theorem readBracket_stop {fault : Stop} (noSpace : skipSpaces input = input)
    (itemRead : readItem input = .error fault) : readBracket input = .error fault := by
  simp [readBracket, readItems, noSpace, itemRead, Except.map]

def isNameChar (c : Char) : Bool := !(['.', '['].contains c)

/-- The reader takes a part of the input that ends with a name, and with it all that may belong to
the name. -/
def TakesName (read : Parse α) (input : List Char) (result : α) (rest : List Char) : Prop :=
  ∃ taken, input = taken ++ rest ∧ ∃ make : List Char → α, make [] = result ∧
    ∀ more others, (∀ c ∈ more, isNameChar c = true) → Stops isNameChar others →
      read (taken ++ (more ++ others)) = .ok (make more, others)

theorem readDotted_takes {selector : Selector} (found : readDotted input = .ok (selector, rest)) :
    Closes readDotted input selector rest ∨ TakesName readDotted input selector rest := by
  unfold readDotted at found
  split at found
  · cases found
    exact .inl ⟨['*'], rfl, fun _ => rfl⟩
  · rename_i noStar
    obtain ⟨⟨name, left⟩, nameRead, same⟩ := (Fallible.map_eq_ok_iff _ _ _).mp found
    cases same
    obtain ⟨rfl, someName, all, -⟩ := of_readRun nameRead
    refine .inr ⟨name.toList, rfl, fun more => .name (.ofList (name.toList ++ more)), by simp, ?_⟩
    intro more others moreAll stops
    have longer : ∀ c ∈ name.toList ++ more, isNameChar c = true := fun c member =>
      (List.mem_append.mp member).elim (all c) (moreAll c)
    have nameNext := readRun_append (by simp [someName]) longer stops
    obtain ⟨c, others, split⟩ := List.exists_cons_of_ne_nil someName
    rw [split] at noStar nameNext ⊢
    have plain : c ≠ '*' := by
      rintro rfl
      exact noStar _ rfl
    simp only [List.cons_append, List.append_assoc] at nameNext ⊢
    simp [readDotted, plain, readName, nameNext]

theorem noEnd_of_readDotted {selector : Selector}
    (found : readDotted input = .ok (selector, rest)) (after : List Char) :
    input ≠ '.' :: after ∧ input ≠ '[' :: after := by
  constructor <;> rintro rfl <;> cases found

theorem readSegment_child (noDot : ∀ after, input ≠ '.' :: after) :
    readSegment ('.' :: input) =
      (readDotted input).map fun (selector, rest) => (.child selector, rest) := by
  cases input with
  | nil => rfl
  | cons c input =>
    have plain : c ≠ '.' := by
      rintro rfl
      exact noDot input rfl
    simp [readSegment, plain]

theorem readSegment_descendant (noBracket : ∀ after, input ≠ '[' :: after) :
    readSegment ('.' :: '.' :: input) =
      (readDotted input).map fun (selector, rest) => (.descendant selector, rest) := by
  cases input with
  | nil => rfl
  | cons c input =>
    have plain : c ≠ '[' := by
      rintro rfl
      exact noBracket input rfl
    simp [readSegment]

theorem readSegment_of_selector {read : Parse Selector} {make : Selector → Segment}
    (start : List Char)
    (segmentRead : ∀ input selector rest, read input = .ok (selector, rest) →
      readSegment (start ++ input) = .ok (make selector, rest))
    {selector : Selector}
    (takes : Closes read input selector rest ∨ TakesName read input selector rest) :
    Closes readSegment (start ++ input) (make selector) rest ∨
      TakesName readSegment (start ++ input) (make selector) rest := by
  rcases takes with ⟨taken, rfl, again⟩ | ⟨taken, rfl, name, rfl, again⟩
  · refine .inl ⟨start ++ taken, by simp, fun others => ?_⟩
    rw [List.append_assoc]
    exact segmentRead _ _ _ (again others)
  · refine .inr ⟨start ++ taken, by simp, fun more => make (name more), rfl, ?_⟩
    intro more others all stops
    rw [List.append_assoc]
    exact segmentRead _ _ _ (again more others all stops)

theorem readSegment_takes {segment : Segment} (found : readSegment input = .ok (segment, rest)) :
    Closes readSegment input segment rest ∨ TakesName readSegment input segment rest := by
  unfold readSegment at found
  split at found
  case h_1 =>
    obtain ⟨⟨selector, left⟩, selectorRead, same⟩ := (Fallible.map_eq_ok_iff _ _ _).mp found
    cases same
    refine readSegment_of_selector ['.', '.', '['] (fun input selector rest read => ?_)
      (.inl (readBracket_closes selectorRead))
    simp only [List.cons_append, List.nil_append, readSegment, read, Fallible.ok_map]
  case h_2 =>
    obtain ⟨⟨selector, left⟩, selectorRead, same⟩ := (Fallible.map_eq_ok_iff _ _ _).mp found
    cases same
    refine readSegment_of_selector ['.', '.'] (fun input selector rest read => ?_)
      (readDotted_takes selectorRead)
    have noBracket := fun after => (noEnd_of_readDotted read after).2
    rw [List.cons_append, List.singleton_append, readSegment_descendant noBracket, read,
      Fallible.ok_map]
  case h_3 =>
    obtain ⟨⟨selector, left⟩, selectorRead, same⟩ := (Fallible.map_eq_ok_iff _ _ _).mp found
    cases same
    refine readSegment_of_selector ['.'] (fun input selector rest read => ?_)
      (readDotted_takes selectorRead)
    have noDot := fun after => (noEnd_of_readDotted read after).1
    rw [List.singleton_append, readSegment_child noDot, read, Fallible.ok_map]
  case h_4 =>
    obtain ⟨⟨selector, left⟩, selectorRead, same⟩ := (Fallible.map_eq_ok_iff _ _ _).mp found
    cases same
    refine readSegment_of_selector ['['] (fun input selector rest read => ?_)
      (.inl (readBracket_closes selectorRead))
    simp only [List.singleton_append, readSegment, read, Fallible.ok_map]
  case h_5 | h_6 => cases found

/-- A segment takes at least one character, and the same before every text that goes on with no
name. -/
theorem readSegment_append {segment : Segment} (found : readSegment input = .ok (segment, rest)) :
    ∃ taken, taken ≠ [] ∧ input = taken ++ rest ∧
      ∀ others, Stops isNameChar others →
        readSegment (taken ++ others) = .ok (segment, others) := by
  have again : ∃ taken, input = taken ++ rest ∧
      ∀ others, Stops isNameChar others →
        readSegment (taken ++ others) = .ok (segment, others) := by
    rcases readSegment_takes found with ⟨taken, split, again⟩ | ⟨taken, split, make, rfl, again⟩
    · exact ⟨taken, split, fun others _ => again others⟩
    · exact ⟨taken, split, fun others stops => again [] others (by simp) stops⟩
  obtain ⟨taken, split, again⟩ := again
  refine ⟨taken, ?_, split, again⟩
  rintro rfl
  cases again [] (stops_nil isNameChar)

end Reconcile.Query
