import Reconcile.Proofs.Comparison.FirstFault
import Reconcile.Proofs.Json.Strings
import Reconcile.Proofs.Query.Composition

namespace Reconcile

open Query Text

namespace Json

/-- How a character is read back from its escape by a reader that drops the backslash. -/
def unslash (c : Char) : List Char :=
  match escape c with
  | '\\' :: rest => rest
  | plain => plain

theorem unslash_of_printable {c : Char} (printable : 0x20 ≤ c.toNat) : unslash c = [c] := by
  rcases escape_cases c with ⟨-, noBackslash, -, plain⟩ | ⟨-, escaped⟩ | ⟨control, -⟩
  · simp [unslash, plain, noBackslash]
  · simp [unslash, escaped]
  · omega

theorem printable_of_mem_unslash {c d : Char} (member : d ∈ unslash c) : 0x20 ≤ d.toNat := by
  by_cases printable : 0x20 ≤ c.toNat
  · rw [unslash_of_printable printable, List.mem_singleton] at member
    rwa [member]
  · rcases escape_cases c with ⟨above, -⟩ | ⟨above, -⟩ | ⟨-, letter, rest, escaped, visible, others⟩
    · exact absurd above printable
    · exact absurd above printable
    · simp only [unslash, escaped] at member
      rcases List.mem_cons.mp member with rfl | member
      · exact visible
      · exact (others d member).2.2

theorem flatMap_unslash_eq_iff (name : List Char) :
    name.flatMap unslash = name ↔ ∀ c ∈ name, 0x20 ≤ c.toNat := by
  constructor
  · intro same c member
    rw [← same] at member
    obtain ⟨d, -, member⟩ := List.mem_flatMap.mp member
    exact printable_of_mem_unslash member
  · intro printable
    have plain : name.flatMap unslash = name.flatMap fun c => [c] :=
      List.flatMap_congr fun c member => unslash_of_printable (printable c member)
    rw [plain, List.flatMap_singleton']

end Json

namespace Query

theorem readQuoted_escape (c : Char) (before rest : List Char) :
    readQuoted '"' before (Json.escape c ++ rest) =
      readQuoted '"' ((Json.unslash c).reverse ++ before) rest := by
  rcases Json.escape_cases c with ⟨-, noBackslash, noQuote, plain⟩ | ⟨-, escaped⟩ |
    ⟨-, letter, others, escaped, -, plain⟩
  · simp [Json.unslash, plain, noBackslash, readQuoted_cons noBackslash, noQuote]
  · simp [Json.unslash, escaped, readQuoted]
  · have visible : ∀ d, (false, d) ∈ others.map (false, ·) → d ≠ '\\' ∧ d ≠ '"' := by
      intro d member
      obtain ⟨same, inside, found⟩ := List.mem_map.mp member
      cases found
      exact ⟨(plain d inside).1, (plain d inside).2.1⟩
    have written : slashed (others.map (false, ·)) = others := by
      simp [slashed, List.flatMap_map]
    have othersRead := readQuoted_slashed visible (letter :: before) rest
    rw [written] at othersRead
    simp [Json.unslash, escaped, readQuoted, othersRead, Function.comp_def]

theorem readQuoted_quote (name before rest : List Char) :
    readQuoted '"' before (name.flatMap Json.escape ++ '"' :: rest) =
      .ok (.ofList (before.reverse ++ name.flatMap Json.unslash), rest) := by
  induction name generalizing before with
  | nil => simp [readQuoted]
  | cons c name ih =>
    rw [List.flatMap_cons, List.append_assoc, readQuoted_escape, ih]
    simp

end Query

namespace Step

def readBack : Step → Step
  | .name label => .name (.ofList (label.toList.flatMap Json.unslash))
  | .index position => .index position

def toPath : Step → Path
  | .name label => ⟨[.child (.name label)]⟩
  | .index position => ⟨[.child (.index position)]⟩

def Fits : Step → Prop
  | .name _ => True
  | .index position => position < twoTo 63

/-- A step that its written form leads to: a name without control characters, or a position that
fits. -/
def IsLegible : Step → Prop
  | .name label => ∀ c ∈ label.toList, 0x20 ≤ c.toNat
  | .index position => position < twoTo 63

theorem trim_path (step : Step) : trim step.path.toList = '$' :: step.text.toList := by
  have whole : step.path.toList = '$' :: step.text.toList := by simp [path]
  obtain ⟨inside, closed⟩ : ∃ inside, step.text.toList = inside ++ [']'] := by
    cases step with
    | name label => exact ⟨'[' :: Json.quote label.toList, by simp [text]⟩
    | index position => exact ⟨'[' :: position.repr.toList, by simp [text]⟩
  rw [whole]
  refine trim_of_ends (by rintro c ⟨⟩; rfl) fun c last => ?_
  rw [closed, ← List.cons_append, List.getLast?_concat] at last
  cases last
  rfl

end Step

namespace Query

theorem readItem_repr (position : Nat) :
    readItem (position.repr.toList ++ [']']) =
      if position < twoTo 63 then .ok (.index position, [']'])
      else stop .indexTooLarge (position.repr.toList ++ [']']) := by
  obtain ⟨first, others, written, digit, -⟩ := repr_eq_cons position
  have all : ∀ c ∈ position.repr.toList, c.isDigit = true := fun c => isDigit_of_mem_repr
  have someDigit : position.repr.toList ≠ [] := by simp [written]
  have noSign : (position.repr.toList ++ [']']).head? ≠ some '-' := by
    rw [written]
    rintro ⟨⟩
    cases digit
  have ends : Stops Char.isDigit [']'] := stops_cons (by decide) []
  have numberRead := readInteger_digits all ends noSign
  rw [if_neg someDigit, decimalValue_repr] at numberRead
  have itemRead : readItem (position.repr.toList ++ [']']) =
      readIndexOrSlice (position.repr.toList ++ [']']) := by
    rw [written]
    exact readItem_number (.inl (by simp [startsNumber, digit])) _
  rw [itemRead, readIndexOrSlice, numberRead]
  split <;> rfl

theorem readSegments_item {text : List Char} {item : Selector} (noSpace : skipSpaces text = text)
    (itemRead : readItem text = .ok (item, [']'])) :
    readSegments ('[' :: text).length ('[' :: text) = .ok [.child item] := by
  simp [readSegments, readSegment, readBracket_item noSpace itemRead]

theorem readSegments_stop {text : List Char} {fault : Stop} (noSpace : skipSpaces text = text)
    (itemRead : readItem text = .error fault) :
    readSegments ('[' :: text).length ('[' :: text) = .error fault := by
  simp [readSegments, readSegment, readBracket_stop noSpace itemRead, Except.map]

theorem position?_natCast (position length : Nat) :
    position? position length = if position < length then some position else none := by
  have noSign : ¬(position : Int) < 0 := by omega
  simp [position?, noSign]

end Query

namespace Step

theorem parse_path_eq_ok_iff (step : Step) (path : Path) :
    Path.parse step.path = .ok path ↔
      step.Fits ∧ path = step.readBack.toPath := by
  obtain ⟨segments⟩ := path
  simp only [Path.parse_eq_ok_iff, trim_path, List.cons.injEq, true_and, exists_eq_left']
  cases step with
  | name label =>
    have nameRead : readItem ('"' :: (label.toList.flatMap Json.escape ++ ['"', ']'])) =
        .ok (.name (.ofList (label.toList.flatMap Json.unslash)), [']']) := by
      simp [readItem, isQuote, readQuoted_quote]
    have text : (Step.name label).text.toList =
        '[' :: '"' :: (label.toList.flatMap Json.escape ++ ['"', ']']) := by
      simp [Step.text, Json.quote]
    rw [text, readSegments_item (skipSpaces_cons (by decide) _) nameRead]
    simp [Fits, readBack, toPath, eq_comm]
  | index position =>
    have text : (Step.index position).text.toList = '[' :: (position.repr.toList ++ [']']) := by
      simp [Step.text]
    have written : renderInt position = position.repr.toList := by
      have noSign : ¬(position : Int) < 0 := by omega
      rw [renderInt, if_neg noSign, Int.natAbs_natCast]
    have noSpace := skipSpaces_renderInt position [']']
    have itemRead := readItem_repr position
    rw [written] at noSpace
    by_cases fits : position < twoTo 63
    · rw [if_pos fits] at itemRead
      rw [text, readSegments_item noSpace itemRead]
      simp [Fits, readBack, toPath, fits, eq_comm]
    · rw [if_neg fits] at itemRead
      rw [text, readSegments_stop noSpace itemRead]
      simp [Fits, fits]

theorem nodes_toPath (step : Step) (document : Value) :
    step.toPath.nodes document = (document.step? step).toList.map fun value => ⟨[step], value⟩ := by
  cases step with
  | name label =>
    simp only [Path.nodes_eq, toPath, nodesFrom, Segment.nodes, Selector.select, Value.root,
      Value.step?, List.nil_append]
    cases document.member? label <;> rfl
  | index position =>
    simp only [Path.nodes_eq, toPath, nodesFrom, Segment.nodes, Selector.select, Value.root,
      Value.step?]
    cases document with
    | array items =>
      by_cases inside : position < items.length
      · simp [position?_natCast, inside, itemNodes]
      · simp [position?_natCast, inside]
    | _ => rfl

theorem query_toPath (step : Step) (document : Value) :
    step.toPath.query document = (document.step? step).toList := by
  simp [Path.query, nodes_toPath, Function.comp_def]

theorem isLegible_iff (step : Step) :
    step.IsLegible ↔ step.Fits ∧ step.readBack = step := by
  cases step with
  | name label =>
    rw [IsLegible, ← Json.flatMap_unslash_eq_iff, readBack, Step.name.injEq]
    simp [Fits, ← String.toList_inj]
  | index position => simp [IsLegible, Fits, readBack]

end Step

namespace Pair

theorem eq_of_check_mismatch {strictness : Strictness} {pair : Pair} {step : Step} {a b : Value}
    (failed : pair.check strictness = .error (.valueMismatch step a b)) : pair = ⟨step, a, b⟩ := by
  unfold check at failed
  split at failed
  · cases failed
  · cases failed
    rfl
  · cases failed

theorem exists_of_compare_eq_error {strictness : Strictness} {pairs : List Pair} {fault : Fault}
    (failed : compare strictness pairs = .error fault) :
    ∃ pair ∈ pairs, pair.check strictness = .error fault := by
  obtain ⟨before, pair, after, rfl, -, wrong⟩ :=
    (compare_eq_error_iff strictness pairs fault).mp failed
  exact ⟨pair, List.mem_append_cons_self, (check_eq_error_iff strictness pair fault).mpr wrong⟩

theorem step?_of_mem_ofDocuments {source target : Value} (wellFormed : source.WellFormed)
    (alike : source.kind = .array ∧ target.kind = .array ∨
      source.kind = .object ∧ target.kind = .object)
    {pair : Pair} (member : pair ∈ ofDocuments source target) :
    source.step? pair.step = some pair.source ∧ target.step? pair.step = some pair.target := by
  cases source <;> cases target <;> simp [Value.kind] at alike
  case array.array source target =>
    obtain ⟨index, here⟩ := List.mem_iff_getElem?.mp member
    obtain ⟨a, b, atSource, atTarget, rfl⟩ :=
      (getElem?_ofItems_eq_some_iff source target index pair).mp here
    exact ⟨atSource, atTarget⟩
  case object.object source target =>
    obtain ⟨name, a, b, inSource, found, rfl⟩ := (mem_ofMembers_iff source target pair).mp member
    exact ⟨(Value.lookup_eq_some_iff_mem wellFormed.1 name a).mpr inSource, found⟩

end Pair

/-- What the step of a mismatch says about the two documents and the two values. -/
structure Step.Locates (step : Step) (source target a b : Value) : Prop where
  leads : source.step? step = some a ∧ target.step? step = some b
  denotes : ∀ path, Path.parse step.path = .ok path ↔ step.Fits ∧ path = step.readBack.toPath
  finds : ∀ document, step.readBack.toPath.query document = (document.step? step.readBack).toList
  located : step.IsLegible ↔ ∃ path, Path.parse step.path = .ok path ∧
    path.nodes source = [⟨[step], a⟩] ∧ path.nodes target = [⟨[step], b⟩]
  values : step.IsLegible → ∃ path, Path.parse step.path = .ok path ∧
    path.query source = [a] ∧ path.query target = [b]

theorem Step.locates {step : Step} {source target a b : Value}
    (leads : source.step? step = some a ∧ target.step? step = some b) :
    step.Locates source target a b := by
  obtain ⟨atSource, atTarget⟩ := leads
  have legibleParsed (legible : step.IsLegible) : Path.parse step.path = .ok step.toPath := by
    obtain ⟨fits, same⟩ := step.isLegible_iff.mp legible
    exact (step.parse_path_eq_ok_iff _).mpr ⟨fits, by rw [same]⟩
  refine ⟨⟨atSource, atTarget⟩, step.parse_path_eq_ok_iff, query_toPath _, ⟨?_, ?_⟩, ?_⟩
  · intro legible
    exact ⟨step.toPath, legibleParsed legible, by simp [nodes_toPath, atSource],
      by simp [nodes_toPath, atTarget]⟩
  · rintro ⟨path, parsed, found, -⟩
    obtain ⟨fits, rfl⟩ := (step.parse_path_eq_ok_iff path).mp parsed
    rw [nodes_toPath] at found
    refine step.isLegible_iff.mpr ⟨fits, ?_⟩
    obtain ⟨value, -, same⟩ := List.map_eq_singleton_iff.mp found
    have steps := congrArg Node.location same
    exact List.singleton_inj.mp steps
  · intro legible
    exact ⟨step.toPath, legibleParsed legible, by simp [query_toPath, atSource],
      by simp [query_toPath, atTarget]⟩

/-- A mismatch of two arrays or two objects tells where the values stand, in a written form that
leads there if and only if the step is legible. -/
theorem mismatch_located {strictness : Strictness} {source target : Value}
    (wellFormed : source.WellFormed)
    (alike : source.kind = .array ∧ target.kind = .array ∨
      source.kind = .object ∧ target.kind = .object)
    {step : Step} {a b : Value}
    (mismatch : compareDocuments strictness source target = .error (.valueMismatch step a b)) :
    step.Locates source target a b := by
  obtain ⟨pair, member, failed⟩ := Pair.exists_of_compare_eq_error mismatch
  have leads := Pair.step?_of_mem_ofDocuments wellFormed alike member
  rw [Pair.eq_of_check_mismatch failed] at leads
  exact Step.locates leads

def labelled (name text : String) : Value := .object [(name, .string text)]

theorem quotedName_located :
    (labelled "a\"\\b" "x").WellFormed ∧
      compareDocuments .trimmed (labelled "a\"\\b" "x") (labelled "a\"\\b" "y") =
        .error (.valueMismatch (.name "a\"\\b") (.string "x") (.string "y")) ∧
      (Step.name "a\"\\b").IsLegible ∧
      (Step.name "a\"\\b").Locates (labelled "a\"\\b" "x") (labelled "a\"\\b" "y")
        (.string "x") (.string "y") := by
  have wellFormed : (labelled "a\"\\b" "x").WellFormed := by
    simp [labelled, Value.WellFormed, Value.MembersWellFormed]
  have printable : "a\"\\b".toList.all (fun c => decide (0x20 ≤ c.toNat)) = true := rfl
  have legible : (Step.name "a\"\\b").IsLegible := fun c member =>
    of_decide_eq_true (List.all_eq_true.mp printable c member)
  have mismatch : compareDocuments .trimmed (labelled "a\"\\b" "x") (labelled "a\"\\b" "y") =
      .error (.valueMismatch (.name "a\"\\b") (.string "x") (.string "y")) := rfl
  exact ⟨wellFormed, mismatch, legible, mismatch_located wellFormed (.inr ⟨rfl, rfl⟩) mismatch⟩

theorem brokenName_not_found :
    ¬∀ (strictness : Strictness) (source target : Value) (step : Step) (a b : Value),
      source.WellFormed → target.WellFormed →
      (source.kind = .array ∧ target.kind = .array ∨
        source.kind = .object ∧ target.kind = .object) →
      compareDocuments strictness source target = .error (.valueMismatch step a b) →
      ∃ path, Path.parse step.path = .ok path ∧ path.query source = [a] ∧
        path.query target = [b] := by
  intro always
  have wellFormed (text : String) : (labelled "a\nb" text).WellFormed := by
    simp [labelled, Value.WellFormed, Value.MembersWellFormed]
  obtain ⟨path, parsed, found, -⟩ := always .trimmed (labelled "a\nb" "x") (labelled "a\nb" "y")
    (.name "a\nb") (.string "x") (.string "y") (wellFormed "x") (wellFormed "y")
    (.inr ⟨rfl, rfl⟩) rfl
  have readBack : (Step.name "a\nb").readBack = .name "anb" := rfl
  obtain ⟨-, rfl⟩ := (Step.parse_path_eq_ok_iff _ path).mp parsed
  rw [readBack, Step.query_toPath] at found
  cases found

end Reconcile
