import Reconcile.Proofs.Number.Nearest
import Reconcile.Proofs.Query.Composition
import Reconcile.Proofs.Query.Condition

namespace Reconcile

namespace Query

open Binary64

def Comparison.Compares (comparison : Comparison) (a b : Int) : Prop :=
  match comparison with
  | .eq => a = b
  | .ne => a ≠ b
  | .lt => a < b
  | .le => a ≤ b
  | .gt => b < a
  | .ge => b ≤ a

instance (comparison : Comparison) (a b : Int) : Decidable (comparison.Compares a b) :=
  match comparison with
  | .eq => inferInstanceAs (Decidable (a = b))
  | .ne => inferInstanceAs (Decidable (a ≠ b))
  | .lt => inferInstanceAs (Decidable (a < b))
  | .le => inferInstanceAs (Decidable (a ≤ b))
  | .gt => inferInstanceAs (Decidable (b < a))
  | .ge => inferInstanceAs (Decidable (b ≤ a))

theorem compare_int {a b : Int} (aWide : IsWide a) (bWide : IsWide b) :
    (Number.int a).toBinary64.compare (Number.int b).toBinary64 =
      compare (nearestInt a) (nearestInt b) := by
  have positive : (0 : Int) < twoTo unitBits := Int.natCast_pos.mpr (twoTo_pos _)
  rw [Binary64.compare, Number.units_int aWide, Number.units_int bWide]
  rcases lt_trichotomy (nearestInt a) (nearestInt b) with less | same | more
  · rw [compare_lt_iff_lt.mpr less,
      compare_lt_iff_lt.mpr (Int.mul_lt_mul_of_pos_right less positive)]
  · rw [same, compare_eq_iff_eq.mpr rfl, compare_eq_iff_eq.mpr rfl]
  · rw [compare_gt_iff_gt.mpr more,
      compare_gt_iff_gt.mpr (Int.mul_lt_mul_of_pos_right more positive)]

theorem Comparison.holds_int_iff (comparison : Comparison) {a b : Int} (aWide : IsWide a)
    (bWide : IsWide b) :
    comparison.holds (.number (.int a)) (.number (.int b)) = true ↔
      comparison.Compares (nearestInt a) (nearestInt b) := by
  have order : order? (.number (.int a)) (.number (.int b)) =
      some (compare (nearestInt a) (nearestInt b)) := congrArg some (compare_int aWide bWide)
  rcases lt_trichotomy (nearestInt a) (nearestInt b) with less | same | more
  · rw [compare_lt_iff_lt.mpr less] at order
    cases comparison <;> simp [holds, order, Compares] <;> omega
  · rw [compare_eq_iff_eq.mpr same] at order
    cases comparison <;> simp [holds, order, Compares] <;> omega
  · rw [compare_gt_iff_gt.mpr more] at order
    cases comparison <;> simp [holds, order, Compares] <;> omega

theorem Comparison.compares_nearest_iff (comparison : Comparison) {a b : Int}
    (apart : ¬Meet a b) :
    comparison.Compares (nearestInt a) (nearestInt b) ↔ comparison.Compares a b := by
  rcases lt_trichotomy a b with less | rfl | more
  · have nearestLess := nearestInt_lt_nearestInt apart less
    cases comparison <;> simp only [Compares] <;> omega
  · cases comparison <;> simp [Compares]
  · have nearestMore := nearestInt_lt_nearestInt (fun meet => apart meet.symm) more
    cases comparison <;> simp only [Compares] <;> omega

theorem Comparison.compares_nearest_of_meet (comparison : Comparison) {a b : Int}
    (meet : Meet a b) :
    comparison.Compares (nearestInt a) (nearestInt b) ↔
      comparison ∈ [Comparison.eq, .le, .ge] := by
  rw [meet.2]
  cases comparison <;> simp [Compares]

theorem readSegment_condition (condition : Condition) (rest : List Char) :
    readSegment ('[' :: '?' :: '(' :: (condition.write ++ ')' :: ']' :: rest)) =
      .ok (.child (.filter condition.filter), rest) := by
  have itemRead : readItem ('?' :: '(' :: (condition.write ++ ')' :: ']' :: rest)) =
      .ok (.filter condition.filter, ']' :: rest) := readFilter_condition condition (']' :: rest)
  simp only [readSegment, readBracket_item (skipSpaces_cons (by decide) _) itemRead,
    Fallible.ok_map]

def filterText (comparison : Comparison) (b : Int) : String :=
  "$[?(@.k " ++ .ofList comparison.symbol ++ " " ++ b.repr ++ ")]"

def memberFilter (comparison : Comparison) (b : Int) : Filter :=
  ⟨["k"], some (comparison, .number (.int b))⟩

def filterPath (comparison : Comparison) (b : Int) : Path :=
  ⟨[.child (.filter (memberFilter comparison b))]⟩

def element (a : Int) : Value := .object [("k", .number (.int a))]

theorem inWord_of_mem_renderInt {b : Int} : ∀ c ∈ renderInt b, inWord c = true := fun c member =>
  (Bool.and_eq_true_iff.mp (isBare_of_isNumberChar
    (Json.isNumberChar_of_mem_json (.int b) c member))).1

theorem bareLiteral?_renderInt {b : Int} (wide : IsWide b) :
    bareLiteral? (renderInt b) = some (.number (.int b)) := by
  simp [bareLiteral?, Json.read_renderInt wide .text]

def condition (comparison : Comparison) {b : Int} (wide : IsWide b) : Condition where
  before := []
  last := .dotted ['k'] (by decide) (List.all_eq_true.mp rfl)
  test := some ⟨1, comparison, 1, .bare (renderInt b) (.number (.int b)) inWord_of_mem_renderInt
    (bareLiteral?_renderInt wide)⟩

theorem parse_filterText (comparison : Comparison) {b : Int} (wide : IsWide b) :
    Path.parse (filterText comparison b) = .ok (filterPath comparison b) := by
  have written : (filterText comparison b).toList =
      '$' :: ('[' :: '?' :: '(' :: ((condition comparison wide).write ++ [')'])) ++ [']'] := by
    simp [filterText, condition, Condition.write, Condition.testText, Member.write, Test.write,
      Operand.write, spaces, Text.renderInt_eq]
  have segmentRead := readSegment_condition (condition comparison wide) []
  refine (Path.parse_eq_ok_iff _ _).mpr
    ⟨'[' :: '?' :: '(' :: ((condition comparison wide).write ++ [')', ']']), ?_, ?_⟩
  · rw [written, List.cons_append]
    refine (Path.trim_root _).trans (congrArg ('$' :: ·) ?_)
    rw [Text.trimRight_append _ (by decide)]
    simp [Text.trimRight]
  · rw [List.length_cons, readSegments, segmentRead]
    · simp only [Fallible.ok_bind, readSegments]
      rfl
    · exact List.cons_ne_nil _ _

theorem query_filterPath (comparison : Comparison) (b : Int) (items : List Value) :
    (filterPath comparison b).query (.array items) =
      items.filter (memberFilter comparison b).accepts := by
  have values : (itemNodes [] items).map (·.value) = items := by
    apply List.ext_getElem <;> simp [itemNodes]
  conv_rhs => rw [← values, List.filter_map]
  simp [Path.query, Path.nodes, filterPath, Segment.nodes, Selector.select, children,
    Function.comp_def]

theorem accepts_element (comparison : Comparison) {a b : Int} (aWide : IsWide a)
    (bWide : IsWide b) :
    (memberFilter comparison b).accepts (element a) =
      decide (comparison.Compares (nearestInt a) (nearestInt b)) :=
  Bool.eq_iff_iff.mpr ((comparison.holds_int_iff aWide bWide).trans decide_eq_true_iff.symm)

/-- A filter selects an element by the nearest binary64 values of its member and of the literal.
That is the order of the numbers themselves unless they are distinct with one nearest value. -/
theorem filter_compares_nearest (comparison : Comparison) {a b : Int} (aWide : IsWide a)
    (bWide : IsWide b) :
    ∃ path, Path.parse (filterText comparison b) = .ok path ∧
      (∀ before after : List Value,
        path.query (.array (before ++ element a :: after)) =
          path.query (.array before) ++
            (if comparison.Compares (nearestInt a) (nearestInt b) then [element a] else []) ++
              path.query (.array after)) ∧
      (¬Meet a b →
        (comparison.Compares (nearestInt a) (nearestInt b) ↔ comparison.Compares a b)) ∧
      (Meet a b → twoTo 53 ≤ a.natAbs ∧ twoTo 53 ≤ b.natAbs ∧
        (comparison.Compares (nearestInt a) (nearestInt b) ↔
          comparison ∈ [Comparison.eq, .le, .ge])) := by
  refine ⟨filterPath comparison b, parse_filterText comparison bWide, fun before after => ?_,
    comparison.compares_nearest_iff,
    fun meet => ⟨meet.large, meet.symm.large, comparison.compares_nearest_of_meet meet⟩⟩
  have here : [element a].filter (memberFilter comparison b).accepts =
      if comparison.Compares (nearestInt a) (nearestInt b) then [element a] else [] := by
    simp [List.filter_cons, accepts_element comparison aWide bWide]
  rw [query_filterPath, query_filterPath, query_filterPath, ← here, List.append_assoc,
    ← List.filter_append, ← List.filter_append, List.singleton_append]

theorem longId_above :
    IsWide 9007199254740993 ∧ IsWide 9007199254740991 ∧
      ¬Meet 9007199254740993 9007199254740991 ∧ nearestInt 9007199254740993 = 9007199254740992 ∧
      ∃ path, Path.parse "$[?(@.k > 9007199254740991)]" = .ok path ∧
        ∀ before after : List Value,
          path.query (.array (before ++ element 9007199254740993 :: after)) =
            path.query (.array before) ++ [element 9007199254740993] ++
              path.query (.array after) := by
  have aWide : IsWide 9007199254740993 := by decide
  have bWide : IsWide 9007199254740991 := by decide
  have rounded : nearestInt 9007199254740993 = 9007199254740992 := by decide +kernel
  have same : nearestInt 9007199254740991 = 9007199254740991 := by decide +kernel
  have apart : ¬Meet 9007199254740993 9007199254740991 := by
    rintro ⟨-, meet⟩
    rw [rounded, same] at meet
    cases meet
  obtain ⟨path, parsed, found, right, -⟩ := filter_compares_nearest .gt aWide bWide
  refine ⟨aWide, bWide, apart, rounded, path, parsed, fun before after => ?_⟩
  rw [found, if_pos ((right apart).mpr (by decide))]

theorem longId_taken_for_its_neighbour :
    ¬∀ (comparison : Comparison) (a b : Int) (path : Path), IsWide a → IsWide b →
      Path.parse (filterText comparison b) = .ok path →
      (element a ∈ path.query (.array [element a]) ↔ comparison.Compares a b) := by
  intro exact
  have aWide : IsWide 9007199254740993 := by decide
  have bWide : IsWide 9007199254740992 := by decide
  have meet : nearestInt 9007199254740993 = nearestInt 9007199254740992 := by decide +kernel
  have different : ¬Comparison.eq.Compares 9007199254740993 9007199254740992 := by decide
  apply different
  rw [← exact .eq _ _ _ aWide bWide (parse_filterText .eq bWide), query_filterPath]
  simp [accepts_element .eq aWide bWide, Comparison.Compares, meet]

end Query

end Reconcile
