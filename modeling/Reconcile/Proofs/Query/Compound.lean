import Reconcile.Proofs.Query.Composition
import Reconcile.Proofs.Query.Condition

namespace Reconcile

namespace Query

open Text

inductive Connective
  | and
  | or

namespace Connective

def char : Connective → Char
  | .and => '&'
  | .or => '|'

def symbol (connective : Connective) : List Char := [connective.char, connective.char]

end Connective

/-- A segment with two conditions in its filter and spaces on the two sides of the connective. -/
structure Compound where
  descends : Bool
  first : Condition
  left : Nat
  connective : Connective
  right : Nat
  second : Condition

namespace Compound

variable (compound : Compound)

def inside : List Char :=
  compound.first.write ++ (spaces compound.left ++ (compound.connective.symbol ++
    (spaces compound.right ++ compound.second.write)))

def write : List Char :=
  (if compound.descends then ['.', '.'] else []) ++
    '[' :: '?' :: '(' :: (compound.inside ++ [')', ']'])

/-- A name after a dot, the connective and the second condition touch. -/
def Touches : Prop :=
  compound.first.test = none ∧ compound.left = 0 ∧ compound.right = 0 ∧
    ∃ label someLabel plain, compound.first.last = .dotted label someLabel plain

end Compound

theorem Connective.char_plain (connective : Connective) :
    connective.char ≠ ' ' ∧ startsMember connective.char = false ∧
      inWord connective.char = true ∧ isBareChar connective.char = false := by
  cases connective <;> decide

theorem readTest_stops {rest after : List Char} {c : Char} (behind : skipSpaces rest = c :: after)
    (plain : c ∉ [')', '=', '!', '<', '>']) : ∃ stop, readTest rest = .error stop := by
  simp only [List.mem_cons, List.not_mem_nil, or_false, not_or] at plain
  obtain ⟨noParenthesis, noEqual, noExclamation, noLess, noGreater⟩ := plain
  have noOperator : readComparison (c :: after) = stop .expectedOperator (c :: after) := by
    simp [readComparison, noEqual, noExclamation, noLess, noGreater]
  simp [readTest, behind, noParenthesis, noOperator, stop]

theorem skipSpaces_connective (left : Nat) (connective : Connective) (rest : List Char) :
    skipSpaces (spaces left ++ (connective.symbol ++ rest)) =
      connective.char :: connective.char :: rest := by
  rw [skipSpaces_spaces]
  exact skipSpaces_cons connective.char_plain.1 _

theorem readLiteral_stops (operand : Operand) (connective : Connective) {rest : List Char}
    (noEnd : ¬operand.Ends (connective.symbol ++ rest)) :
    ∃ stop, readLiteral (operand.write ++ (connective.symbol ++ rest)) = .error stop := by
  obtain ⟨-, -, wordChar, notBare⟩ := connective.char_plain
  cases operand with
  | quoted label => exact absurd True.intro noEnd
  | bare word value plain denotes =>
    obtain ⟨split, all, stops⟩ := of_span (List.span_eq_takeWhile_dropWhile inWord rest)
    generalize rest.takeWhile inWord = more at split all
    generalize rest.dropWhile inWord = behind at split stops
    have longer : word ++ (connective.symbol ++ rest) =
        (word ++ (connective.symbol ++ more)) ++ behind := by
      rw [split]
      simp
    -- The longer word starts as the operand does, but no literal has a connective in it.
    have noQuote := stops_isQuote_of_bareLiteral? denotes (connective.symbol ++ rest)
    rw [longer] at noQuote
    have allInside : ∀ c ∈ word ++ (connective.symbol ++ more), inWord c = true := by
      intro c member
      simp only [Connective.symbol, List.mem_append, List.mem_cons, List.not_mem_nil,
        or_false] at member
      rcases member with inside | (rfl | rfl) | inside
      · exact plain c inside
      · exact wordChar
      · exact wordChar
      · exact all c inside
    have noLiteral : bareLiteral? (word ++ (connective.symbol ++ more)) = none := by
      rw [Option.eq_none_iff_forall_ne_some]
      intro literal denoted
      have bare := bare_of_bareLiteral? denoted connective.char (by simp [Connective.symbol])
      rw [notBare] at bare
      cases bare
    rw [Operand.write, longer, readLiteral_word noQuote allInside stops, noLiteral]
    exact ⟨_, rfl⟩

theorem readTest_connective (test : Test) (left : Nat) (connective : Connective)
    (rest : List Char) :
    ∃ stop, readTest (test.write ++ (spaces left ++ (connective.symbol ++ rest))) =
      .error stop := by
  rw [readTest_append]
  by_cases ends : test.operand.Ends (spaces left ++ (connective.symbol ++ rest))
  · have noClose : expect ')' (connective.char :: connective.char :: rest) =
        stop (.expected ')') (connective.char :: connective.char :: rest) := by
      cases connective <;> rfl
    rw [readLiteral_operand test.operand ends, Fallible.ok_bind]
    simp only [skipSpaces_connective, noClose, stop, Fallible.error_bind]
    exact ⟨_, rfl⟩
  · cases left with
    | zero =>
      obtain ⟨stop, failed⟩ := readLiteral_stops test.operand connective ends
      exact ⟨stop, by rw [spaces, List.replicate_zero, List.nil_append, failed]; rfl⟩
    | succ left =>
      refine absurd ?_ ends
      cases test.operand with
      | quoted label => exact True.intro
      | bare word value => exact stops_cons (by decide) _

theorem readFilter_connective (first : Condition) (left : Nat) (connective : Connective)
    (rest : List Char)
    (ends : first.last.Ends (first.testText ++ (spaces left ++ (connective.symbol ++ rest)))) :
    ∃ stop, readFilter ('(' :: (first.write ++ (spaces left ++ (connective.symbol ++ rest)))) =
      .error stop := by
  obtain ⟨-, noMember, -⟩ := connective.char_plain
  have afterSpaces : Stops startsMember (spaces left ++ (connective.symbol ++ rest)) :=
    stops_spaces (by decide) (stops_cons noMember _) left
  cases isTest : first.test with
  | none =>
    have noTest : first.testText = [] := by simp [Condition.testText, isTest]
    have noOperator : connective.char ∉ [')', '=', '!', '<', '>'] := by
      cases connective <;> decide
    obtain ⟨stop, failed⟩ := readTest_stops (skipSpaces_connective left connective rest) noOperator
    rw [readFilter_append first ends (by rwa [noTest]), noTest, List.nil_append, failed]
    exact ⟨stop, rfl⟩
  | some test =>
    have starts : Stops startsMember
        (first.testText ++ (spaces left ++ (connective.symbol ++ rest))) :=
      first.stops_testText isTest rfl _
    have testText : first.testText = test.write := by simp [Condition.testText, isTest]
    obtain ⟨stop, failed⟩ := readTest_connective test left connective rest
    rw [readFilter_append first ends starts, testText, failed]
    exact ⟨stop, rfl⟩

theorem Connective.isMemberChar_of_mem (connective : Connective) :
    ∀ c ∈ connective.symbol, isMemberChar c = true := by
  cases connective <;> exact List.all_eq_true.mp rfl

def Member.longer (more : List Char) (plain : ∀ c ∈ more, isMemberChar c = true) :
    Member → Member
  | .dotted label someLabel labelPlain =>
    .dotted (label ++ more) (by simp [someLabel]) fun c member =>
      (List.mem_append.mp member).elim (labelPlain c) (plain c)
  | member => member

theorem Member.write_longer {member : Member} {more : List Char}
    (plain : ∀ c ∈ more, isMemberChar c = true)
    (dotted : ∃ label someLabel labelPlain, member = .dotted label someLabel labelPlain) :
    (member.longer more plain).write = member.write ++ more := by
  obtain ⟨label, someLabel, labelPlain, rfl⟩ := dotted
  rfl

theorem readFilter_longer (first : Condition) (connective : Connective) (right : Nat)
    (second : Condition) (noTest : first.test = none)
    (dotted : ∃ label someLabel plain, first.last = .dotted label someLabel plain)
    (rest : List Char) :
    ∃ stop, readFilter ('(' :: (first.write ++ (connective.symbol ++
      (spaces (right + 1) ++ (second.write ++ rest))))) = .error stop := by
  obtain ⟨behind, isBehind⟩ : ∃ behind, behind = spaces (right + 1) ++ (second.write ++ rest) :=
    ⟨_, rfl⟩
  have space {kind : Char → Bool} (noSpace : kind ' ' = false) : Stops kind behind := by
    rw [isBehind]
    exact stops_cons noSpace _
  have root : skipSpaces behind = second.write ++ rest := by
    rw [isBehind, skipSpaces_spaces]
    exact skipSpaces_cons (by decide) _
  let longer : Condition :=
    ⟨first.before, first.last.longer connective.symbol connective.isMemberChar_of_mem, none⟩
  have written : first.write ++ (connective.symbol ++ behind) = longer.write ++ behind := by
    simp [longer, Condition.write, Condition.testText, noTest, Member.write_longer _ dotted]
  have ends : longer.last.Ends (longer.testText ++ behind) := by
    obtain ⟨label, someLabel, plain, isLast⟩ := dotted
    simp only [longer, isLast]
    exact space (by decide)
  have starts : Stops startsMember (longer.testText ++ behind) := space (by decide)
  obtain ⟨stop, failed⟩ := readTest_stops root (by decide)
  rw [← isBehind, written, readFilter_append longer ends starts]
  exact ⟨stop, congrArg (Except.map _) failed⟩

theorem readFilter_compound_stops (compound : Compound) (apart : ¬compound.Touches)
    (rest : List Char) :
    ∃ stop, readFilter ('(' :: (compound.inside ++ rest)) = .error stop := by
  obtain ⟨descends, first, left, connective, right, second⟩ := compound
  have written : Compound.inside ⟨descends, first, left, connective, right, second⟩ ++ rest =
      first.write ++ (spaces left ++ (connective.symbol ++
        (spaces right ++ (second.write ++ rest)))) := by
    simp [Compound.inside]
  rw [written]
  by_cases ends : first.last.Ends (first.testText ++ (spaces left ++ (connective.symbol ++
      (spaces right ++ (second.write ++ rest)))))
  · exact readFilter_connective first left connective _ ends
  · -- The last name goes on over the connective, so a space has to stand behind that.
    cases isLast : first.last with
    | bracketed before label after =>
      rw [isLast] at ends
      exact absurd True.intro ends
    | dotted label someLabel plain =>
      rw [isLast] at ends
      cases isTest : first.test with
      | some test => exact absurd (first.stops_testText isTest rfl _) ends
      | none =>
        have noTest : first.testText = [] := by simp [Condition.testText, isTest]
        rw [noTest, List.nil_append] at ends
        cases left with
        | succ left => exact absurd (stops_cons (by decide) _) ends
        | zero =>
          cases right with
          | zero => exact absurd ⟨isTest, rfl, rfl, label, someLabel, plain, isLast⟩ apart
          | succ right =>
            exact readFilter_longer first connective right second isTest
              ⟨label, someLabel, plain, isLast⟩ rest

def Compound.joined (compound : Compound) : Condition where
  before := compound.first.before ++ compound.first.last.longer
    (compound.connective.symbol ++ ['@'])
    (by cases compound.connective <;> exact List.all_eq_true.mp rfl) :: compound.second.before
  last := compound.second.last
  test := compound.second.test

theorem Compound.write_joined {compound : Compound} (touches : compound.Touches) :
    compound.joined.write = compound.inside := by
  obtain ⟨noTest, noLeft, noRight, dotted⟩ := touches
  simp [Compound.inside, Compound.joined, Condition.write, Condition.testText, noTest, noLeft,
    noRight, spaces, Member.write_longer _ dotted]

def Compound.segment (compound : Compound) (selector : Selector) : Segment :=
  if compound.descends then .descendant selector else .child selector

theorem Compound.write_append (compound : Compound) (rest : List Char) :
    compound.write ++ rest = (if compound.descends then ['.', '.'] else []) ++
      '[' :: '?' :: '(' :: (compound.inside ++ ')' :: ']' :: rest) := by
  simp [Compound.write]

theorem readSegment_compound_stops (compound : Compound) (apart : ¬compound.Touches)
    (rest : List Char) : ∃ stop, readSegment (compound.write ++ rest) = .error stop := by
  obtain ⟨stop, failed⟩ := readFilter_compound_stops compound apart (')' :: ']' :: rest)
  have bracketRead : readBracket ('?' :: '(' :: (compound.inside ++ ')' :: ']' :: rest)) =
      .error stop := readBracket_stop (skipSpaces_cons (by decide) _) failed
  refine ⟨stop, ?_⟩
  rw [compound.write_append]
  cases compound.descends <;> simp [readSegment, bracketRead, Except.map]

theorem readSegment_compound {compound : Compound} (touches : compound.Touches)
    (rest : List Char) :
    readSegment (compound.write ++ rest) =
      .ok (compound.segment (.filter compound.joined.filter), rest) := by
  have filterRead := readFilter_condition compound.joined (']' :: rest)
  rw [Compound.write_joined touches] at filterRead
  have bracketRead : readBracket ('?' :: '(' :: (compound.inside ++ ')' :: ']' :: rest)) =
      .ok (.filter compound.joined.filter, rest) :=
    readBracket_item (skipSpaces_cons (by decide) _) filterRead
  rw [compound.write_append, Compound.segment]
  cases compound.descends <;> simp [readSegment, bracketRead]

theorem Compound.write_eq_cons (compound : Compound) :
    ∃ c inner, compound.write = c :: (inner ++ [']']) ∧ (c = '.' ∨ c = '[') := by
  cases descends : compound.descends with
  | true =>
    exact ⟨'.', '.' :: '[' :: '?' :: '(' :: (compound.inside ++ [')']),
      by simp [Compound.write, descends], .inl rfl⟩
  | false =>
    exact ⟨'[', '?' :: '(' :: (compound.inside ++ [')']),
      by simp [Compound.write, descends], .inr rfl⟩

end Query

open Query

namespace Path

/-- Two conditions in a filter are rejected behind every path and before every text, but for those
that touch. These are read as one condition. -/
theorem parse_compound {before : String} {path : Path} (found : Path.parse before = .ok path)
    (compound : Compound) (after : String) :
    (¬compound.Touches →
      ∃ fault, Path.parse (before ++ (.ofList compound.write ++ after)) = .error fault) ∧
    (compound.Touches → Text.trimRight before.toList = before.toList →
      ∀ others, Path.parse ("$" ++ after) = .ok others →
        Path.parse (before ++ (.ofList compound.write ++ after)) =
          .ok (path ++ (⟨[compound.segment (.filter compound.joined.filter)]⟩ ++ others))) := by
  obtain ⟨c, inner, written, start⟩ := compound.write_eq_cons
  have goesOn : (String.ofList compound.write ++ after).toList =
      c :: (inner ++ ']' :: after.toList) := by
    simp [written]
  have trimmed : c :: Text.trimRight (inner ++ ']' :: after.toList) =
      compound.write ++ Text.trimRight after.toList := by
    rw [Text.trimRight_append inner (by decide), written]
    simp
  have noBlank : Text.isBlank c = false := by
    rcases start with rfl | rfl <;> decide
  have noName : isNameChar c = false := by
    rcases start with rfl | rfl <;> decide
  constructor
  · intro apart
    obtain ⟨stop, failed⟩ := readSegment_compound_stops compound apart
      (Text.trimRight after.toList)
    refine parse_append_blocked found goesOn noBlank noName ⟨stop, ?_⟩
    rw [← trimmed] at failed
    simp only [List.length_cons, readSegments, failed, Fallible.error_bind]
  · intro touches tight others othersParsed
    obtain ⟨rest, same, othersRead⟩ := (parse_eq_ok_iff _ others).mp othersParsed
    have othersTrimmed := trim_root after.toList
    rw [String.toList_append] at same
    obtain rfl : Text.trimRight after.toList = rest := by
      simpa using othersTrimmed.symm.trans same
    have first := readSegment_compound touches (Text.trimRight after.toList)
    rw [← trimmed] at first
    have compoundParsed : Path.parse ("$" ++ (.ofList compound.write ++ after)) =
        .ok (⟨[compound.segment (.filter compound.joined.filter)]⟩ ++ others) := by
      refine (parse_eq_ok_iff _ _).mpr ⟨c :: Text.trimRight (inner ++ ']' :: after.toList), ?_, ?_⟩
      · rw [String.toList_append, goesOn]
        exact (trim_root _).trans
          (congrArg ('$' :: ·) (Text.trimRight_append [] noBlank (inner ++ ']' :: after.toList)))
      · have enough : (Text.trimRight after.toList).length ≤
            (Text.trimRight (inner ++ ']' :: after.toList)).length := by
          rw [Text.trimRight_append inner (by decide), List.length_append, List.length_cons]
          omega
        have othersNext := readSegments_fuel enough (Nat.le_refl _)
        simp only [List.length_cons, readSegments, first, othersNext, othersRead, Fallible.ok_bind]
        rfl
    have starts : (String.ofList compound.write ++ after).toList.head? = some '.' ∨
        (String.ofList compound.write ++ after).toList.head? = some '[' := by
      rw [goesOn]
      rcases start with rfl | rfl
      · exact .inl rfl
      · exact .inr rfl
    exact (parse_append_eq_ok_iff found tight starts _).mpr ⟨_, compoundParsed, rfl⟩

end Path

def isOpen : Condition where
  before := []
  last := .dotted ['o', 'p', 'e', 'n'] (by decide) (List.all_eq_true.mp rfl)
  test := none

def isFirst : Condition where
  before := []
  last := .dotted ['n'] (by decide) (List.all_eq_true.mp rfl)
  test := some ⟨1, .eq, 1, .bare ['1'] (.number (.int 1)) (List.all_eq_true.mp rfl) rfl⟩

def firstAndOpen : Compound := ⟨false, isFirst, 0, .and, 0, isOpen⟩

def openAndOpen : Compound := ⟨false, isOpen, 0, .and, 0, isOpen⟩

theorem firstAndOpen_parsed :
    Path.parse "$..items" = .ok (.everyMember "items") ∧ ¬firstAndOpen.Touches ∧
      (∃ fault, Path.parse ("$..items" ++ (.ofList firstAndOpen.write ++ ".name")) =
        .error fault) ∧
      openAndOpen.Touches ∧
      Path.parse ("$..items" ++ (.ofList openAndOpen.write ++ ".name")) =
        .ok ⟨[.descendant (.name "items"), .child (.filter ⟨["open&&@", "open"], none⟩),
          .child (.name "name")]⟩ := by
  have items : Path.parse "$..items" = .ok (.everyMember "items") := rfl
  have name : Path.parse ("$" ++ ".name") = .ok ⟨[.child (.name "name")]⟩ := rfl
  have apart : ¬firstAndOpen.Touches := by
    rintro ⟨noTest, -⟩
    cases noTest
  have touches : openAndOpen.Touches := ⟨rfl, rfl, rfl, _, _, _, rfl⟩
  exact ⟨items, apart, (Path.parse_compound items firstAndOpen ".name").1 apart, touches,
    (Path.parse_compound items openAndOpen ".name").2 touches rfl _ name⟩

def Query.Condition.IsPlain (condition : Condition) : Prop :=
  ∀ member ∈ condition.before ++ [condition.last], ∀ label someLabel plain,
    member = .dotted label someLabel plain → '&' ∉ label ∧ '|' ∉ label

theorem openAndOpen_accepted :
    ¬∀ (before after : String) (path others : Path) (compound : Compound),
      Path.parse before = .ok path → Path.parse ("$" ++ after) = .ok others →
      compound.first.IsPlain → compound.second.IsPlain →
      ∃ fault, Path.parse (before ++ (.ofList compound.write ++ after)) = .error fault := by
  intro always
  have plain : isOpen.IsPlain := by
    intro member inside label someLabel labelPlain same
    obtain rfl := List.mem_singleton.mp inside
    cases same
    decide
  have accepted : Path.parse ("$" ++ (.ofList openAndOpen.write ++ "")) =
      .ok ⟨[.child (.filter ⟨["open&&@", "open"], none⟩)]⟩ := rfl
  obtain ⟨fault, rejected⟩ := always "$" "" ⟨[]⟩ ⟨[]⟩ openAndOpen rfl rfl plain plain
  rw [accepted] at rejected
  cases rejected

end Reconcile
