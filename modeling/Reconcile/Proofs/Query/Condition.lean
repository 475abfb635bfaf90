import Reconcile.Proofs.Json.Bare
import Reconcile.Proofs.Query.Taking

namespace Reconcile.Query

open Text

def spaces (count : Nat) : List Char := List.replicate count ' '

@[simp] theorem skipSpaces_spaces (count : Nat) (rest : List Char) :
    skipSpaces (spaces count ++ rest) = skipSpaces rest := by
  induction count with
  | zero => rfl
  | succ count ih => simpa [spaces, List.replicate_succ] using ih

theorem stops_spaces {kind : Char → Bool} {rest : List Char} (noSpace : kind ' ' = false)
    (stops : Stops kind rest) (count : Nat) : Stops kind (spaces count ++ rest) := by
  cases count with
  | zero => exact stops
  | succ count => exact stops_cons noSpace _

structure Quotation where
  quote : Char
  pieces : List (Bool × Char)
  isQuote : isQuote quote = true
  /-- A backslash and the quote itself have a backslash before them. -/
  plain : ∀ c, (false, c) ∈ pieces → c ≠ '\\' ∧ c ≠ quote

namespace Quotation

def text (quotation : Quotation) : String := .ofList (quotation.pieces.map (·.2))

def write (quotation : Quotation) : List Char :=
  quotation.quote :: (slashed quotation.pieces ++ [quotation.quote])

end Quotation

def isMemberChar (c : Char) : Bool := !(['.', '[', ' ', ')', '=', '!', '<', '>'].contains c)

inductive Member
  | dotted (label : List Char) (someLabel : label ≠ [])
      (plain : ∀ c ∈ label, isMemberChar c = true)
  | bracketed (left : Nat) (label : Quotation) (right : Nat)

namespace Member

def name : Member → String
  | .dotted label _ _ => .ofList label
  | .bracketed _ label _ => label.text

def write : Member → List Char
  | .dotted label _ _ => '.' :: label
  | .bracketed left label right => '[' :: (spaces left ++ (label.write ++ (spaces right ++ [']'])))

def Ends (rest : List Char) : Member → Prop
  | .dotted _ _ _ => Stops isMemberChar rest
  | .bracketed _ _ _ => True

end Member

inductive Operand
  | quoted (label : Quotation)
  | bare (word : List Char) (value : Literal) (plain : ∀ c ∈ word, inWord c = true)
      (denotes : bareLiteral? word = some value)

namespace Operand

def literal : Operand → Literal
  | .quoted label => .string label.text
  | .bare _ value _ _ => value

def write : Operand → List Char
  | .quoted label => label.write
  | .bare word _ _ _ => word

def Ends (rest : List Char) : Operand → Prop
  | .quoted _ => True
  | .bare _ _ _ _ => Stops inWord rest

end Operand

structure Test where
  left : Nat
  comparison : Comparison
  right : Nat
  operand : Operand

def Test.write (test : Test) : List Char :=
  spaces test.left ++ (test.comparison.symbol ++ (spaces test.right ++ test.operand.write))

structure Condition where
  before : List Member
  last : Member
  test : Option Test

namespace Condition

def testText (condition : Condition) : List Char := condition.test.elim [] Test.write

def write (condition : Condition) : List Char :=
  '@' :: (condition.before.flatMap Member.write ++ (condition.last.write ++ condition.testText))

def field (condition : Condition) : List String :=
  condition.before.map Member.name ++ [condition.last.name]

def filter (condition : Condition) : Filter where
  field := condition.field
  test := condition.test.map fun test => (test.comparison, test.operand.literal)

end Condition

theorem readQuoted_quotation (quotation : Quotation) (rest : List Char) :
    readQuoted quotation.quote [] (slashed quotation.pieces ++ quotation.quote :: rest) =
      .ok (quotation.text, rest) := by
  have noBackslash : quotation.quote ≠ '\\' := by
    intro same
    have isQuote := quotation.isQuote
    rw [same] at isQuote
    cases isQuote
  exact readQuoted_closed noBackslash quotation.plain rest

theorem noSpace_of_isQuote {c : Char} (quoted : isQuote c = true) : c ≠ ' ' := by
  rintro rfl
  cases quoted

theorem Member.write_eq_cons (member : Member) :
    ∃ c rest, member.write = c :: rest ∧ startsMember c = true ∧ isMemberChar c = false := by
  cases member with
  | dotted label => exact ⟨'.', label, rfl, rfl, rfl⟩
  | bracketed left label right => exact ⟨'[', _, rfl, rfl, rfl⟩

theorem readField_member (member : Member) {rest : List Char} (ends : member.Ends rest)
    (fuel : Nat) :
    readField (fuel + 1) (member.write ++ rest) =
      (readField fuel rest).map fun (names, left) => (member.name :: names, left) := by
  cases member with
  | dotted label someLabel plain =>
    have nameRead : readFilterName (label ++ rest) = .ok (.ofList label, rest) :=
      readRun_append someLabel plain ends
    simp only [Member.write, Member.name, List.cons_append, readField, nameRead, Fallible.ok_bind]
    cases readField fuel rest <;> rfl
  | bracketed left label right =>
    have written : (Member.bracketed left label right).write ++ rest =
        '[' :: (spaces left ++ label.quote :: (slashed label.pieces ++ label.quote ::
          (spaces right ++ ']' :: rest))) := by
      simp [Member.write, Quotation.write]
    have opening := skipSpaces_cons (noSpace_of_isQuote label.isQuote)
      (slashed label.pieces ++ label.quote :: (spaces right ++ ']' :: rest))
    have closing := skipSpaces_cons (show ']' ≠ ' ' by decide) rest
    simp only [written, readField, skipSpaces_spaces, opening, label.isQuote, if_true,
      readQuoted_quotation, closing, expect_cons, Member.name, Fallible.ok_bind]
    cases readField fuel rest <;> rfl

theorem readField_members (before : List Member) (last : Member) {rest : List Char}
    (ends : last.Ends rest) (starts : Stops startsMember rest) {fuel : Nat}
    (enough : before.length < fuel) :
    readField fuel (before.flatMap Member.write ++ (last.write ++ rest)) =
      .ok (before.map Member.name ++ [last.name], rest) := by
  obtain ⟨fuel, rfl⟩ := Nat.exists_eq_add_one_of_ne_zero (Nat.ne_zero_of_lt enough)
  induction before generalizing fuel with
  | nil =>
    have stop : readField fuel rest = .ok ([], rest) :=
      readField_written [] (Nat.zero_le fuel) starts
    rw [List.flatMap_nil, List.nil_append, readField_member last ends, stop]
    rfl
  | cons member before ih =>
    -- A name ends where the next member starts.
    have goesOn : member.Ends (before.flatMap Member.write ++ (last.write ++ rest)) := by
      obtain ⟨next, others, sameText⟩ : ∃ (next : Member) (others : List Char),
          before.flatMap Member.write ++ (last.write ++ rest) = next.write ++ others := by
        cases before with
        | nil => exact ⟨last, rest, rfl⟩
        | cons next before => exact ⟨next, _, by rw [List.flatMap_cons, List.append_assoc]⟩
      obtain ⟨c, after, written, -, noName⟩ := next.write_eq_cons
      rw [sameText, written]
      cases member with
      | dotted label => exact stops_cons noName _
      | bracketed left label right => exact True.intro
    have less : before.length < fuel := Nat.lt_of_succ_lt_succ enough
    obtain ⟨fuel, rfl⟩ := Nat.exists_eq_add_one_of_ne_zero (Nat.ne_zero_of_lt less)
    rw [List.flatMap_cons, List.append_assoc, readField_member member goesOn,
      ih fuel less, Fallible.ok_map]
    simp

theorem Operand.write_eq_cons (operand : Operand) :
    ∃ c rest, operand.write = c :: rest ∧ c ≠ ' ' ∧ c ≠ '=' := by
  cases operand with
  | quoted label =>
    have noEqual : label.quote ≠ '=' := by
      intro same
      have isQuote := label.isQuote
      rw [same] at isQuote
      cases isQuote
    exact ⟨label.quote, _, rfl, noSpace_of_isQuote label.isQuote, noEqual⟩
  | bare word value plain denotes =>
    cases word with
    | nil => cases denotes
    | cons c word =>
      have bare := bare_of_bareLiteral? denotes c List.mem_cons_self
      have inside := plain c List.mem_cons_self
      refine ⟨c, word, rfl, ?_, ?_⟩
      · rintro rfl
        cases inside
      · rintro rfl
        exact absurd bare (by decide)

theorem stops_isQuote_of_bareLiteral? {word : List Char} {value : Literal}
    (denotes : bareLiteral? word = some value) (rest : List Char) :
    Stops isQuote (word ++ rest) := by
  cases word with
  | nil => cases denotes
  | cons c word =>
    have bare := bare_of_bareLiteral? denotes c List.mem_cons_self
    refine stops_cons (Bool.eq_false_iff.mpr fun quoted => ?_) _
    simp only [isQuote, Bool.or_eq_true, beq_iff_eq] at quoted
    rcases quoted with rfl | rfl
    · exact absurd bare (by decide)
    · exact absurd bare (by decide)

theorem readLiteral_operand (operand : Operand) {rest : List Char} (ends : operand.Ends rest) :
    readLiteral (operand.write ++ rest) = .ok (operand.literal, rest) := by
  cases operand with
  | quoted label =>
    have written : (Operand.quoted label).write ++ rest =
        label.quote :: (slashed label.pieces ++ label.quote :: rest) := by
      simp [Operand.write, Quotation.write]
    simp only [written, readLiteral, label.isQuote, if_true, readQuoted_quotation, Fallible.ok_map,
      Operand.literal]
  | bare word value plain denotes =>
    have noQuote := stops_isQuote_of_bareLiteral? denotes rest
    rw [Operand.write, readLiteral_word noQuote plain ends, denotes]
    rfl

theorem skipSpaces_test (test : Test) (rest : List Char) :
    skipSpaces (test.write ++ rest) =
      test.comparison.symbol ++ (spaces test.right ++ (test.operand.write ++ rest)) := by
  simp only [Test.write, List.append_assoc, skipSpaces_spaces, skipSpaces_symbol]

theorem readTest_append (test : Test) (rest : List Char) :
    readTest (test.write ++ rest) = do
      let (literal, left) ← readLiteral (test.operand.write ++ rest)
      let left ← expect ')' (skipSpaces left)
      return (some (test.comparison, literal), left) := by
  obtain ⟨c, word, written, noSpace, noEqual⟩ := test.operand.write_eq_cons
  have operandStart : skipSpaces (spaces test.right ++ (test.operand.write ++ rest)) =
      test.operand.write ++ rest := by
    rw [skipSpaces_spaces, written, List.cons_append, skipSpaces_cons noSpace]
  have noEqualNext : Stops (· == '=') (spaces test.right ++ (test.operand.write ++ rest)) := by
    refine stops_spaces (by decide) ?_ _
    rw [written]
    exact stops_cons (by simpa using noEqual) _
  have operatorRead := readComparison_append test.comparison noEqualNext
  rw [readTest, skipSpaces_test]
  split
  · -- No operator is a closing parenthesis.
    rename_i head
    cases operator : test.comparison <;> rw [operator] at head <;> cases head
  · simp only [operatorRead, Fallible.ok_bind, operandStart]

theorem Condition.stops_testText {condition : Condition} {test : Test}
    (isTest : condition.test = some test) {kind : Char → Bool}
    (plain : [' ', '=', '!', '<', '>'].all (fun c => !kind c) = true) (rest : List Char) :
    Stops kind (condition.testText ++ rest) := by
  simp only [List.all_cons, List.all_nil, Bool.and_true, Bool.and_eq_true, Bool.not_eq_true']
    at plain
  obtain ⟨space, equal, exclamation, less, greater⟩ := plain
  have operator : Stops kind (test.comparison.symbol ++
      (spaces test.right ++ (test.operand.write ++ rest))) := by
    cases test.comparison with
    | eq => exact stops_cons equal _
    | ne => exact stops_cons exclamation _
    | lt | le => exact stops_cons less _
    | gt | ge => exact stops_cons greater _
  have written : condition.testText ++ rest = spaces test.left ++
      (test.comparison.symbol ++ (spaces test.right ++ (test.operand.write ++ rest))) := by
    simp [Condition.testText, isTest, Test.write]
  rw [written]
  exact stops_spaces space operator _

theorem readFilter_append (condition : Condition) {rest : List Char}
    (ends : condition.last.Ends (condition.testText ++ rest))
    (starts : Stops startsMember (condition.testText ++ rest)) :
    readFilter ('(' :: (condition.write ++ rest)) =
      (readTest (condition.testText ++ rest)).map fun (test, left) =>
        (.filter ⟨condition.field, test⟩, left) := by
  have written : '(' :: (condition.write ++ rest) = '(' :: '@' ::
      (condition.before.flatMap Member.write ++
        (condition.last.write ++ (condition.testText ++ rest))) := by
    simp [Condition.write]
  have bracket := skipSpaces_cons (show '(' ≠ ' ' by decide)
  have root := skipSpaces_cons (show '@' ≠ ' ' by decide)
  have enough : condition.before.length < (condition.before.flatMap Member.write ++
      (condition.last.write ++ (condition.testText ++ rest))).length := by
    have someText (member : Member) : member.write ≠ [] := by
      obtain ⟨c, others, written, -⟩ := member.write_eq_cons
      simp [written]
    have others := length_le_flatMap someText condition.before
    have last := List.length_pos_iff.mpr (someText condition.last)
    simp only [List.length_append]
    omega
  have fieldRead := readField_members condition.before condition.last ends starts enough
  simp only [written, readFilter, bracket, root, expect_cons, fieldRead, Fallible.ok_bind,
    Condition.field]
  cases readTest (condition.testText ++ rest) <;> rfl

theorem readFilter_condition (condition : Condition) (rest : List Char) :
    readFilter ('(' :: (condition.write ++ ')' :: rest)) =
      .ok (.filter condition.filter, rest) := by
  cases isTest : condition.test with
  | none =>
    have noTest : condition.testText = [] := by simp [Condition.testText, isTest]
    have ends : condition.last.Ends (condition.testText ++ ')' :: rest) := by
      rw [noTest]
      cases condition.last with
      | dotted label => exact stops_cons (by decide) rest
      | bracketed left label right => exact True.intro
    have starts : Stops startsMember (condition.testText ++ ')' :: rest) := by
      rw [noTest]
      exact stops_cons (by decide) rest
    rw [readFilter_append condition ends starts, noTest]
    simp [readTest, Condition.filter, isTest]
  | some test =>
    have ends : condition.last.Ends (condition.testText ++ ')' :: rest) := by
      cases condition.last with
      | dotted label => exact condition.stops_testText isTest rfl _
      | bracketed left label right => exact True.intro
    have starts : Stops startsMember (condition.testText ++ ')' :: rest) :=
      condition.stops_testText isTest rfl _
    have testText : condition.testText = test.write := by simp [Condition.testText, isTest]
    have closed : test.operand.Ends (')' :: rest) := by
      cases test.operand with
      | quoted label => exact True.intro
      | bare word value => exact stops_cons (by decide) rest
    rw [readFilter_append condition ends starts, testText, readTest_append,
      readLiteral_operand test.operand closed]
    simp [Condition.filter, isTest]

end Reconcile.Query
