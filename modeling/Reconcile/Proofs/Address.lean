import Reconcile.Extraction
import Reconcile.Proofs.Fallible
import Reconcile.Proofs.Text.Splitting

namespace Reconcile

namespace Address

theorem parse_bar {selector : List Char} (noBar : '|' ∉ selector) (after : List Char) :
    Address.parse (.ofList (selector ++ '|' :: after)) =
      ⟨.ofList selector, .ofSuffix (.ofList (after.takeWhile (· != '|')))⟩ := by
  obtain ⟨others, kind⟩ := Text.splitOn_eq_cons '|' after
  have pieces : Text.splitOn '|' (selector ++ '|' :: after) =
      selector :: after.takeWhile (· != '|') :: others := by
    rw [Text.splitOn_eq, List.splitOn_append_cons_self_of_not_mem noBar, ← Text.splitOn_eq, kind]
  simp only [parse, String.toList_ofList, pieces]

theorem parse_noBar {text : List Char} (noBar : '|' ∉ text) :
    Address.parse (.ofList text) = ⟨.ofList text, .unrecognized ""⟩ := by
  have pieces : Text.splitOn '|' text = [text] := by
    rw [Text.splitOn_eq, List.splitOn_eq_singleton noBar]
  simp only [parse, String.toList_ofList, pieces]

theorem suffix_ofSuffix (suffix : String) : (Kind.ofSuffix suffix).suffix = suffix := by
  unfold Kind.ofSuffix
  split
  · rename_i isQuery
    exact isQuery.symm
  split
  · rename_i isField
    exact isField.symm
  · rfl

theorem parse_text_parse (text : String) :
    Address.parse (Address.parse text).text = Address.parse text := by
  by_cases bar : '|' ∈ text.toList
  · obtain ⟨selector, after, split, noBar⟩ := List.eq_append_cons_of_mem bar
    have parsed := parse_bar noBar after
    rw [← split, String.ofList_toList] at parsed
    rw [parsed, Address.text]
    split
    · rename_i empty
      simp only at empty
      rw [parse_noBar noBar, empty]
    · have whole : String.ofList selector ++ "|" ++
          (Kind.ofSuffix (.ofList (after.takeWhile (· != '|')))).suffix =
          .ofList (selector ++ '|' :: after.takeWhile (· != '|')) := by
        rw [suffix_ofSuffix, ← String.toList_inj]
        simp
      have ends : (after.takeWhile (· != '|')).takeWhile (· != '|') =
          after.takeWhile (· != '|') :=
        List.takeWhile_eq_self_iff.mpr fun _ => List.mem_takeWhile_imp
      rw [whole, parse_bar noBar, ends]
  · have parsed := parse_noBar bar
    rw [String.ofList_toList] at parsed
    rw [parsed, Address.text, if_pos rfl, parsed]

theorem extract_query (selector : String) (document : Value) :
    Address.extract ⟨selector, .query⟩ [] document =
      match Path.parse selector with
      | .ok path => .ok (path.query document)
      | .error cause => .error (.extraction (.query cause)) := by
  simp only [extract, resolve]
  cases Path.parse selector <;> rfl

theorem extract_unrecognized (selector suffix : String) (document : Value) :
    Address.extract ⟨selector, .unrecognized suffix⟩ [] document = .ok [] := by
  cases document <;> rfl

/-- What a query text finds as an address is what it denotes as a path: its matches, or its fault.
Nothing is found only where the path has no match. -/
structure Transparent (query : String) (document : Value) : Prop where
  matched : ∀ path, Path.parse query = .ok path →
    (Address.parse (query ++ "|jsonpath")).extract [] document = .ok (path.query document)
  rejected : ∀ cause, Path.parse query = .error cause →
    (Address.parse (query ++ "|jsonpath")).extract [] document =
      .error (.extraction (.query cause))
  empty_iff : (Address.parse (query ++ "|jsonpath")).extract [] document = .ok [] ↔
    ∃ path, Path.parse query = .ok path ∧ path.query document = []

theorem parse_query {query : String} (noBar : '|' ∉ query.toList) :
    Address.parse (query ++ "|jsonpath") = ⟨query, .query⟩ := by
  have whole : query ++ "|jsonpath" = .ofList (query.toList ++ '|' :: "jsonpath".toList) := by simp
  rw [whole, parse_bar noBar, String.ofList_toList]
  rfl

theorem parse_query_bar {query : String} {selector after : List Char}
    (split : query.toList = selector ++ '|' :: after) (noBar : '|' ∉ selector) :
    Address.parse (query ++ "|jsonpath") =
      ⟨.ofList selector, .ofSuffix (.ofList (after.takeWhile (· != '|')))⟩ := by
  have whole : query ++ "|jsonpath" =
      .ofList (selector ++ '|' :: (after ++ "|jsonpath".toList)) := by
    rw [← String.toList_inj, String.toList_append, split, String.toList_ofList]
    simp
  have ends : (after ++ "|jsonpath".toList).takeWhile (· != '|') =
      after.takeWhile (· != '|') := by
    rw [List.takeWhile_append]
    split
    · rename_i noOther
      have all := (List.takeWhile_prefix (· != '|')).eq_of_length noOther
      simp [all]
    · rfl
  rw [whole, parse_bar noBar, ends]

theorem transparent_of_noBar {query : String} (noBar : '|' ∉ query.toList) (document : Value) :
    Transparent query document := by
  constructor
  · intro path parsed
    rw [parse_query noBar, extract_query, parsed]
  · intro cause failed
    rw [parse_query noBar, extract_query, failed]
  · rw [parse_query noBar, extract_query]
    cases Path.parse query <;> simp

/-- A query text without a bar can be addressed. One with a bar is addressed up to its first bar
only, by the kind that the text up to the next bar names, and finds nothing where that is no
kind. -/
theorem extract_query_text (query : String) (document : Value) :
    ('|' ∉ query.toList → Transparent query document) ∧
    ∀ selector after, query.toList = selector ++ '|' :: after → '|' ∉ selector →
      let suffix := String.ofList (after.takeWhile (· != '|'))
      Address.parse (query ++ "|jsonpath") = ⟨.ofList selector, .ofSuffix suffix⟩ ∧
      (suffix ≠ "jsonpath" → suffix ≠ "path" →
        (Address.parse (query ++ "|jsonpath")).extract [] document = .ok []) := by
  refine ⟨fun noBar => transparent_of_noBar noBar document, ?_⟩
  intro selector after split noBar suffix
  have parsed := parse_query_bar split noBar
  refine ⟨parsed, fun noQuery noField => ?_⟩
  have unknown : Kind.ofSuffix suffix = .unrecognized suffix := by
    simp [Kind.ofSuffix, noQuery, noField]
  rw [parsed, unknown, extract_unrecognized]

theorem nameAndBar_addressed :
    Transparent "$.name" .null ∧
      (Address.parse ("$['a|b']" ++ "|jsonpath")).extract [] .null = .ok [] := by
  have name := (extract_query_text "$.name" .null).1 (by decide)
  have bar := (extract_query_text "$['a|b']" .null).2 "$['a".toList "b']".toList rfl (by decide)
  exact ⟨name, bar.2 (by decide) (by decide)⟩

theorem barInName_not_transparent :
    ¬∀ (query : String) (document : Value), Transparent query document := by
  intro transparent
  have path : Path.parse "$['a|b']" = .ok ⟨[.child (.name "a|b")]⟩ := rfl
  have found := (transparent "$['a|b']" (.object [("a|b", .bool true)])).matched _ path
  cases found

example : Path.parse "$[?(@.a || @.b)]" = .error ⟨"$[?(@.a || @.b)]", 8, .expectedOperator⟩ ∧
    (Address.parse "$[?(@.a || @.b)]|jsonpath").extract [] .null = .ok [] := ⟨rfl, rfl⟩

end Address

end Reconcile
