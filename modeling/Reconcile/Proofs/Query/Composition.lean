import Reconcile.Proofs.Query.Matches
import Reconcile.Proofs.Query.Taking

namespace Reconcile

/-- The node where the document stands at a location of a larger one. -/
def Node.under (location : List Step) (node : Node) : Node :=
  ⟨location ++ node.location, node.value⟩

namespace Query

open Text

theorem itemNodes_under (location before : List Step) (items : List Value) :
    itemNodes (location ++ before) items = (itemNodes before items).map (Node.under location) := by
  apply List.ext_getElem <;> simp [itemNodes, Node.under]

theorem memberNodes_under (location before : List Step) (members : List (String × Value)) :
    memberNodes (location ++ before) members =
      (memberNodes before members).map (Node.under location) := by
  simp [memberNodes, Node.under]

theorem children_under (location : List Step) (node : Node) :
    children (node.under location) = (children node).map (Node.under location) := by
  obtain ⟨before, value⟩ := node
  cases value with
  | array items => exact itemNodes_under location before items
  | object members => exact memberNodes_under location before members
  | _ => rfl

theorem subtree_under (location : List Step) (node : Node) :
    (node.under location).subtree = node.subtree.map (Node.under location) := by
  induction node using induction_on_children with
  | step node ih =>
    rw [subtree_eq, subtree_eq node, children_under, List.map_cons, List.flatMap_map,
      List.map_flatMap]
    congr 1
    exact List.flatMap_congr ih

theorem sliceOf_map {α β : Type} (start stop : Option Int) (items : List α) (f : α → β) :
    sliceOf start stop (items.map f) = (sliceOf start stop items).map f := by
  simp only [sliceOf, List.length_map, List.map_drop, List.map_take]

mutual

theorem select_under (location : List Step) (node : Node) :
    ∀ selector : Selector,
      selector.select (node.under location) = (selector.select node).map (Node.under location)
  | .name name => by
    simp only [Selector.select, Node.under]
    split <;> simp [Node.under]
  | .wildcard => by simp only [Selector.select, children_under]
  | .index index => by
    obtain ⟨before, value⟩ := node
    cases value with
    | array items =>
      simp only [Selector.select, Node.under]
      split
      · rw [itemNodes_under, List.getElem?_map, Option.toList_map]
      · rfl
    | _ => rfl
  | .slice start stop => by
    obtain ⟨before, value⟩ := node
    cases value with
    | array items =>
      simp only [Selector.select, Node.under]
      rw [itemNodes_under, sliceOf_map]
    | _ => rfl
  | .union items => by
    rw [Selector.select, Selector.select]
    exact selectAll_under location node items
  | .filter filter => by
    rw [Selector.select, Selector.select, children_under, List.filter_map]
    rfl

theorem selectAll_under (location : List Step) (node : Node) :
    ∀ items : List Selector,
      selectAll (node.under location) items = (selectAll node items).map (Node.under location)
  | [] => by simp only [selectAll, List.map_nil]
  | item :: items => by
    rw [selectAll, selectAll, List.map_append, select_under, selectAll_under]

end

theorem nodes_under (location : List Step) (segment : Segment) (node : Node) :
    segment.nodes (node.under location) = (segment.nodes node).map (Node.under location) := by
  cases segment with
  | child selector => exact select_under location node selector
  | descendant selector =>
    rw [descendant_nodes, descendant_nodes, subtree_under, List.flatMap_map, List.map_flatMap]
    exact List.flatMap_congr fun below _ => select_under location below selector

theorem nodesFrom_under (location : List Step) (segments : List Segment) (node : Node) :
    nodesFrom segments (node.under location) =
      (nodesFrom segments node).map (Node.under location) := by
  induction segments generalizing node with
  | nil => rfl
  | cons segment segments ih =>
    rw [nodesFrom, nodesFrom, nodes_under, List.flatMap_map, List.map_flatMap]
    exact List.flatMap_congr fun found _ => ih found

theorem nodesFrom_append (before after : List Segment) (node : Node) :
    nodesFrom (before ++ after) node = (nodesFrom before node).flatMap (nodesFrom after) := by
  induction before generalizing node with
  | nil => simp [nodesFrom]
  | cons segment before ih =>
    rw [List.cons_append, nodesFrom, nodesFrom, List.flatMap_assoc]
    exact List.flatMap_congr fun found _ => ih found

theorem stops_of_readSegments {fuel : Nat} {input : List Char} {segments : List Segment}
    (found : readSegments fuel input = .ok segments) : Stops isNameChar input := by
  intro c first
  obtain ⟨after, rfl⟩ := List.head?_eq_some_iff.mp first
  cases fuel with
  | zero => cases found
  | succ fuel =>
    rw [readSegments, Fallible.bind_eq_ok_iff] at found
    · obtain ⟨⟨segment, rest⟩, segmentRead, -⟩ := found
      unfold readSegment at segmentRead
      split at segmentRead
      case h_1 same | h_2 same | h_3 same | h_4 same => cases same; rfl
      case h_5 | h_6 => cases segmentRead
    · exact List.cons_ne_nil c after

theorem readSegments_fuel {input : List Char} {fuel more : Nat} (enough : input.length ≤ fuel)
    (enoughToo : input.length ≤ more) : readSegments fuel input = readSegments more input := by
  induction fuel generalizing input more with
  | zero =>
    obtain rfl := List.length_eq_zero_iff.mp (Nat.le_zero.mp enough)
    cases more <;> rfl
  | succ fuel ih =>
    cases input with
    | nil => cases more <;> rfl
    | cons c input =>
      obtain ⟨more, rfl⟩ := Nat.exists_eq_add_one_of_ne_zero (Nat.ne_zero_of_lt enoughToo)
      simp only [readSegments]
      cases segmentRead : readSegment (c :: input) with
      | error stop => rfl
      | ok result =>
        obtain ⟨taken, someTaken, split, -⟩ := readSegment_append segmentRead
        have shorter : result.2.length < (c :: input).length := by
          have some := List.length_pos_iff.mpr someTaken
          rw [split, List.length_append]
          omega
        rw [List.length_cons] at enough enoughToo shorter
        simp only [Fallible.ok_bind, ih (by omega : result.2.length ≤ fuel)
          (by omega : result.2.length ≤ more)]

theorem readSegments_append {fuel : Nat} {input : List Char} {segments : List Segment}
    (found : readSegments fuel input = .ok segments) {more : List Char}
    (starts : Stops isNameChar more) {total : Nat} (enough : (input ++ more).length ≤ total) :
    readSegments total (input ++ more) =
      (readSegments more.length more).map (segments ++ ·) := by
  have behind {total : Nat} (enough : more.length ≤ total) :
      readSegments total more = (readSegments more.length more).map ([] ++ ·) := by
    rw [readSegments_fuel enough (Nat.le_refl _)]
    cases readSegments more.length more <;> rfl
  induction fuel generalizing input segments total with
  | zero =>
    cases input with
    | nil =>
      cases found
      exact behind enough
    | cons c input => cases found
  | succ fuel ih =>
    cases input with
    | nil =>
      cases found
      exact behind enough
    | cons c input =>
      simp only [readSegments, Fallible.bind_eq_ok_iff] at found
      obtain ⟨⟨segment, rest⟩, segmentRead, others, othersRead, found⟩ := found
      cases found
      obtain ⟨taken, someTaken, split, again⟩ := readSegment_append segmentRead
      have goesOn : Stops isNameChar (rest ++ more) := by
        cases rest with
        | nil => exact starts
        | cons d rest => exact stops_cons (stops_of_readSegments othersRead d rfl) _
      have first := again (rest ++ more) goesOn
      rw [← List.append_assoc, ← split] at first
      obtain ⟨total, rfl⟩ := Nat.exists_eq_add_one_of_ne_zero (Nat.ne_zero_of_lt enough)
      have shorter : (rest ++ more).length ≤ total := by
        have some := List.length_pos_iff.mpr someTaken
        have lengths := congrArg List.length split
        simp only [List.length_cons, List.length_append] at enough lengths ⊢
        omega
      simp only [List.cons_append] at first ⊢
      simp only [readSegments, first, ih othersRead shorter, Fallible.ok_bind]
      cases readSegments more.length more <;> rfl

/-- A segment takes at least one character, and with name characters behind it, it either takes them
too or leaves them. -/
theorem readSegment_more {input rest more : List Char} {segment : Segment}
    (found : readSegment input = .ok (segment, rest)) (all : ∀ c ∈ more, isNameChar c = true) :
    ∃ taken, taken ≠ [] ∧ input = taken ++ rest ∧
      ∀ others, Stops isNameChar others →
        (∃ longer, readSegment (taken ++ (more ++ others)) = .ok (longer, others)) ∨
          readSegment (taken ++ (more ++ others)) = .ok (segment, more ++ others) := by
  rcases readSegment_takes found with ⟨taken, split, again⟩ | ⟨taken, split, make, rfl, again⟩
  · refine ⟨taken, ?_, split, fun others _ => .inr (again _)⟩
    rintro rfl
    cases again []
  · refine ⟨taken, ?_, split, fun others stops => .inl ⟨make more, again more others all stops⟩⟩
    rintro rfl
    cases again [] [] (by simp) (stops_nil isNameChar)

theorem readSegments_blocked {fuel : Nat} {input : List Char} {segments : List Segment}
    (found : readSegments fuel input = .ok segments) {between more : List Char}
    (all : ∀ c ∈ between, isNameChar c = true) (starts : Stops isNameChar more)
    (failed : ∃ stop, readSegments more.length more = .error stop) {total : Nat}
    (enough : (input ++ (between ++ more)).length ≤ total) :
    ∃ stop, readSegments total (input ++ (between ++ more)) = .error stop := by
  have blocked {total : Nat} (enough : more.length ≤ total) :
      ∃ stop, readSegments total more = .error stop := by
    rw [readSegments_fuel enough (Nat.le_refl _)]
    exact failed
  have behind {total : Nat} (enough : (between ++ more).length ≤ total) :
      ∃ stop, readSegments total (between ++ more) = .error stop := by
    cases between with
    | nil => exact blocked enough
    | cons c between =>
      obtain ⟨total, rfl⟩ := Nat.exists_eq_add_one_of_ne_zero (Nat.ne_zero_of_lt enough)
      have name := all c List.mem_cons_self
      have noDot : c ≠ '.' := by
        rintro rfl
        cases name
      have noBracket : c ≠ '[' := by
        rintro rfl
        cases name
      have unread : readSegment (c :: (between ++ more)) =
          stop (.unexpected c) (c :: (between ++ more)) := by
        unfold readSegment
        split <;> simp_all
      refine ⟨⟨.unexpected c, c :: (between ++ more)⟩, ?_⟩
      simp only [List.cons_append, readSegments, unread, stop, Fallible.error_bind]
  induction fuel generalizing input segments total with
  | zero =>
    cases input with
    | nil => exact behind enough
    | cons c input => cases found
  | succ fuel ih =>
    cases input with
    | nil => exact behind enough
    | cons c input =>
      simp only [readSegments, Fallible.bind_eq_ok_iff] at found
      obtain ⟨⟨segment, rest⟩, segmentRead, others, othersRead, found⟩ := found
      obtain ⟨total, rfl⟩ := Nat.exists_eq_add_one_of_ne_zero (Nat.ne_zero_of_lt enough)
      have step {longer : Segment} {left : List Char}
          (first : readSegment (c :: input ++ (between ++ more)) = .ok (longer, left))
          (next : ∃ stop, readSegments total left = .error stop) :
          ∃ stop, readSegments (total + 1) (c :: input ++ (between ++ more)) = .error stop := by
        obtain ⟨stop, failed⟩ := next
        rw [List.cons_append] at first ⊢
        refine ⟨stop, ?_⟩
        simp only [readSegments, first, failed, Fallible.ok_bind, Fallible.error_bind]
      simp only [List.length_cons, List.length_append] at enough
      cases rest with
      | nil =>
        -- The last segment may go on over the characters between, if it ends with a name.
        obtain ⟨taken, someTaken, split, again⟩ := readSegment_more segmentRead all
        rw [List.append_nil] at split
        rcases again more starts with ⟨longer, first⟩ | first
        · exact step (split ▸ first) (blocked (by omega))
        · exact step (split ▸ first) (behind (by rw [List.length_append]; omega))
      | cons d rest =>
        obtain ⟨taken, someTaken, split, again⟩ := readSegment_append segmentRead
        have noName : isNameChar d = false := stops_of_readSegments othersRead d rfl
        have first := again (d :: rest ++ (between ++ more)) (stops_cons noName _)
        rw [← List.append_assoc, ← split] at first
        have some := List.length_pos_iff.mpr someTaken
        have lengths := congrArg List.length split
        simp only [List.length_cons, List.length_append] at lengths
        refine step first (ih othersRead ?_)
        simp only [List.length_cons, List.length_append]
        omega

end Query

open Query

instance : Append Path where
  append first second := ⟨first.segments ++ second.segments⟩

namespace Path

theorem segments_append (first second : Path) :
    (first ++ second).segments = first.segments ++ second.segments := rfl

theorem nodesFrom_values (segments : List Segment) (node : Node) :
    (nodesFrom segments node).map (·.value) =
      (nodesFrom segments node.value.root).map (·.value) := by
  have moved : node.value.root.under node.location = node := by simp [Value.root, Node.under]
  have located := nodesFrom_under node.location segments node.value.root
  rw [moved] at located
  rw [located, List.map_map]
  rfl

theorem query_append (first second : Path) (document : Value) :
    (first ++ second).query document = (first.query document).flatMap second.query := by
  simp only [query, nodes_eq, segments_append, nodesFrom_append, List.map_flatMap, List.flatMap_map]
  exact List.flatMap_congr fun node _ => nodesFrom_values second.segments node

theorem parse_eq_ok_iff (text : String) (path : Path) :
    Path.parse text = .ok path ↔
      ∃ rest, Text.trim text.toList = '$' :: rest ∧
        readSegments rest.length rest = .ok path.segments := by
  unfold parse
  cases trimmed : Text.trim text.toList with
  | nil => simp [readPath, stop, Except.mapError]
  | cons c rest =>
    by_cases root : c = '$'
    · subst root
      cases segmentsRead : readSegments rest.length rest with
      | error stop => simp [readPath, segmentsRead, Except.map, Except.mapError]
      | ok segments =>
        obtain ⟨others⟩ := path
        simp [readPath, segmentsRead, Except.mapError]
    · simp [readPath, root, stop, Except.mapError]

theorem trim_root (text : List Char) : Text.trim ('$' :: text) = '$' :: Text.trimRight text :=
  Text.trimRight_append [] (by decide) text

/-- What a path text is after trimming when it goes on with something that is not blank. Blanks at
its end are then inside. -/
theorem trim_behind {before : String} {first : Path} (found : Path.parse before = .ok first)
    {c : Char} (noBlank : Text.isBlank c = false) (rest : List Char) :
    ∃ input blanks, readSegments input.length input = .ok first.segments ∧
      (∀ b ∈ blanks, Text.isBlank b = true) ∧
      (Text.trimRight before.toList = before.toList → blanks = []) ∧
      Text.trim (before.toList ++ c :: rest) =
        '$' :: (input ++ (blanks ++ c :: Text.trimRight rest)) := by
  obtain ⟨input, trimmed, segmentsRead⟩ := (parse_eq_ok_iff before first).mp found
  obtain ⟨blanks, left, allBlank⟩ := Text.trimRight_takes (Text.trimLeft before.toList)
  rw [← Text.trim, trimmed, List.cons_append] at left
  refine ⟨input, blanks, segmentsRead, allBlank, fun tight => ?_, ?_⟩
  · obtain ⟨split, -, -⟩ :=
      Text.of_span (List.span_eq_takeWhile_dropWhile Text.isBlank before.toList)
    have root : Text.isBlank '$' = false := by decide
    have inside := Text.trimRight_append [] root (input ++ blanks)
    have ends := Text.trimRight_append (before.toList.takeWhile Text.isBlank) root (input ++ blanks)
    rw [List.nil_append, List.nil_append, ← left, ← Text.trim, trimmed, List.cons_inj_right]
      at inside
    rw [← Text.trimLeft, left] at split
    rw [← split, tight, ← inside] at ends
    have same := ends.symm.trans split
    simpa using same
  · have someLeft : Text.trimLeft before.toList ≠ [] := by simp [left]
    rw [Text.trim_append someLeft noBlank, left]
    simp

theorem isNameChar_of_isBlank {c : Char} (blank : Text.isBlank c = true) : isNameChar c = true := by
  by_contra noName
  have other : c = '.' ∨ c = '[' := by
    simp only [isNameChar, Bool.not_eq_true', Bool.not_eq_false, List.contains_iff_mem] at noName
    simpa using noName
  rcases other with rfl | rfl
  · exact absurd blank (by decide)
  · exact absurd blank (by decide)

theorem parse_append_blocked {before after : String} {first : Path}
    (found : Path.parse before = .ok first) {c : Char} {rest : List Char}
    (goesOn : after.toList = c :: rest) (noBlank : Text.isBlank c = false)
    (noName : isNameChar c = false)
    (failed : ∃ stop, readSegments (c :: Text.trimRight rest).length (c :: Text.trimRight rest) =
      .error stop) : ∃ fault, Path.parse (before ++ after) = .error fault := by
  obtain ⟨input, blanks, firstRead, allBlank, -, trimmed⟩ := trim_behind found noBlank rest
  have names : ∀ b ∈ blanks, isNameChar b = true := fun b member =>
    isNameChar_of_isBlank (allBlank b member)
  obtain ⟨stop, blocked⟩ := readSegments_blocked firstRead names
    (Text.stops_cons noName (Text.trimRight rest)) failed (Nat.le_refl _)
  cases parsed : Path.parse (before ++ after) with
  | error fault => exact ⟨fault, rfl⟩
  | ok whole =>
    obtain ⟨others, same, segmentsRead⟩ := (parse_eq_ok_iff _ whole).mp parsed
    rw [String.toList_append, goesOn, trimmed, List.cons_inj_right] at same
    rw [← same, blocked] at segmentsRead
    cases segmentsRead

theorem parse_append_eq_ok_iff {before after : String} {first : Path}
    (found : Path.parse before = .ok first)
    (tight : Text.trimRight before.toList = before.toList)
    (starts : after.toList.head? = some '.' ∨ after.toList.head? = some '[') (whole : Path) :
    Path.parse (before ++ after) = .ok whole ↔
      ∃ second, Path.parse ("$" ++ after) = .ok second ∧ whole = first ++ second := by
  obtain ⟨c, rest, goesOn, noBlank, noName⟩ : ∃ c rest, after.toList = c :: rest ∧
      Text.isBlank c = false ∧ isNameChar c = false := by
    rcases starts with dot | bracket
    · obtain ⟨rest, goesOn⟩ := List.head?_eq_some_iff.mp dot
      exact ⟨'.', rest, goesOn, by decide, by decide⟩
    · obtain ⟨rest, goesOn⟩ := List.head?_eq_some_iff.mp bracket
      exact ⟨'[', rest, goesOn, by decide, by decide⟩
  obtain ⟨input, blanks, firstRead, -, noBlanks, trimmed⟩ := trim_behind found noBlank rest
  obtain rfl := noBlanks tight
  have rooted : Text.trim ("$" ++ after).toList = '$' :: c :: Text.trimRight rest := by
    have root : Text.trimLeft ['$'] ≠ [] := by decide
    rw [String.toList_append, goesOn]
    exact Text.trim_append root noBlank rest
  have wholeTrimmed : Text.trim (before ++ after).toList =
      '$' :: (input ++ c :: Text.trimRight rest) := by
    rw [String.toList_append, goesOn, trimmed, List.nil_append]
  have together := readSegments_append firstRead (Text.stops_cons noName (Text.trimRight rest))
    (Nat.le_refl (input ++ c :: Text.trimRight rest).length)
  simp only [parse_eq_ok_iff, wholeTrimmed, rooted, List.cons.injEq, true_and, exists_eq_left',
    together, Fallible.map_eq_ok_iff]
  constructor
  · rintro ⟨segments, secondRead, same⟩
    refine ⟨⟨segments⟩, secondRead, ?_⟩
    obtain ⟨others⟩ := whole
    subst same
    rfl
  · rintro ⟨second, secondRead, rfl⟩
    exact ⟨second.segments, secondRead, rfl⟩

/-- A text behind a path denotes what it denotes behind the root, and finds it below every match
of the path. -/
theorem parse_append_composes {before after : String} {first : Path}
    (found : Path.parse before = .ok first)
    (tight : Text.trimRight before.toList = before.toList)
    (starts : after.toList.head? = some '.' ∨ after.toList.head? = some '[') :
    (∀ whole, Path.parse (before ++ after) = .ok whole ↔
      ∃ second, Path.parse ("$" ++ after) = .ok second ∧ whole = first ++ second) ∧
    ∀ (second : Path) document,
      (first ++ second).query document = (first.query document).flatMap second.query :=
  ⟨parse_append_eq_ok_iff found tight starts, query_append first⟩

end Path

def itemsOfDocument : Path := ⟨[.child (.name "items"), .child .wildcard]⟩

theorem itemsThenPrices_compose :
    Path.parse "$.items[*]" = .ok itemsOfDocument ∧
      Path.parse "$..price" = .ok (.everyMember "price") ∧
      Path.parse ("$.items[*]" ++ "..price") = .ok (itemsOfDocument ++ .everyMember "price") := by
  have items : Path.parse "$.items[*]" = .ok itemsOfDocument := rfl
  have prices : Path.parse ("$" ++ "..price") = .ok (.everyMember "price") := rfl
  have starts : "..price".toList.head? = some '.' := rfl
  have composes := Path.parse_append_composes items rfl (.inl starts)
  exact ⟨items, prices, (composes.1 _).mpr ⟨_, prices, rfl⟩⟩

end Reconcile
