import Reconcile.Proofs.Text.Pieces

namespace Reconcile.Text

theorem splitWhere_eq_splitOnP (cut : Char → Bool) (text : List Char) :
    splitWhere cut text = text.splitOnP cut := by
  induction text with
  | nil => rfl
  | cons c text ih =>
    rw [splitWhere, ih, List.splitOnP_cons_eq_if_modifyHead]
    cases cut c with
    | true => rfl
    | false =>
      cases pieces : text.splitOnP cut with
      | nil => exact absurd pieces (List.splitOnP_ne_nil cut text)
      | cons piece pieces => rfl

theorem splitOn_eq (separator : Char) (text : List Char) :
    splitOn separator text = text.splitOn separator := by
  rw [splitOn, splitWhere_eq_splitOnP, List.splitOn_eq_splitOnP]

theorem apart_of_mem_splitWhere {cut : Char → Bool} {text piece : List Char}
    (member : piece ∈ splitWhere cut text) : ∀ c ∈ piece, cut c = false := by
  induction text generalizing piece with
  | nil =>
    rw [List.mem_singleton.mp member]
    simp
  | cons d text ih =>
    rw [splitWhere] at member
    cases here : cut d with
    | true =>
      simp only [here] at member
      rcases List.mem_cons.mp member with rfl | member
      · simp
      · exact ih member
    | false =>
      cases pieces : splitWhere cut text with
      | nil =>
        simp only [here, pieces] at member
        rw [List.mem_singleton.mp member]
        simpa using here
      | cons first others =>
        rw [pieces, List.forall_mem_cons] at ih
        simp only [here, pieces] at member
        rcases List.mem_cons.mp member with rfl | member
        · exact List.forall_mem_cons.mpr ⟨here, ih.1⟩
        · exact ih.2 _ member

theorem separator_not_mem {separator : Char} {text piece : List Char}
    (member : piece ∈ splitOn separator text) : separator ∉ piece := fun inside => by
  have other := apart_of_mem_splitWhere member separator inside
  simp at other

theorem splitOn_eq_cons (separator : Char) (text : List Char) :
    ∃ pieces, splitOn separator text = text.takeWhile (· != separator) :: pieces := by
  induction text with
  | nil => exact ⟨[], rfl⟩
  | cons c text ih =>
    obtain ⟨pieces, split⟩ := ih
    rw [splitOn] at split
    cases here : c == separator with
    | true => exact ⟨splitOn separator text, by simp [splitOn, splitWhere, here, bne]⟩
    | false => exact ⟨pieces, by simp [splitOn, splitWhere, here, split, bne]⟩

theorem cutAt_append {separator : Char} {before : List Char} (apart : separator ∉ before)
    (after : List Char) :
    cutAt separator (before ++ separator :: after) = some (before, after) := by
  induction before with
  | nil => simp [cutAt]
  | cons c before ih =>
    rw [List.mem_cons, not_or] at apart
    simp [cutAt, Ne.symm apart.1, ih apart.2]

theorem cutAt_apart {separator : Char} {text : List Char} (apart : separator ∉ text) :
    cutAt separator text = none := by
  induction text with
  | nil => rfl
  | cons c text ih =>
    rw [List.mem_cons, not_or] at apart
    simp [cutAt, Ne.symm apart.1, ih apart.2]

theorem words_append_cons {c : Char} (blank : isBlank c = true) (before after : List Char) :
    words (before ++ c :: after) = words before ++ words after := by
  simp only [words, splitWhere_eq_splitOnP, List.splitOnP_append_cons before after blank,
    List.filter_append]

theorem words_blanks_append {blanks : List Char} (all : ∀ c ∈ blanks, isBlank c = true)
    (rest : List Char) : words (blanks ++ rest) = words rest := by
  induction blanks with
  | nil => rfl
  | cons c blanks ih =>
    obtain ⟨first, others⟩ := List.forall_mem_cons.mp all
    rw [← ih others]
    exact words_append_cons first [] (blanks ++ rest)

theorem words_blanks {blanks : List Char} (all : ∀ c ∈ blanks, isBlank c = true) :
    words blanks = [] := by
  have none := words_blanks_append all []
  rwa [List.append_nil] at none

theorem blank_of_words_eq_nil {text : List Char} (none : words text = []) :
    ∀ c ∈ text, isBlank c = true := by
  induction text with
  | nil => simp
  | cons c text ih =>
    cases blank : isBlank c with
    | true =>
      have behind := words_append_cons blank [] text
      rw [List.nil_append, none] at behind
      exact List.forall_mem_cons.mpr ⟨blank, ih (List.append_eq_nil_iff.mp behind.symm).2⟩
    | false =>
      -- The character is in a piece, which is then not empty.
      rw [words, splitWhere, blank] at none
      cases pieces : splitWhere isBlank text <;> simp [pieces] at none

theorem words_append_blanks {blanks : List Char} (all : ∀ c ∈ blanks, isBlank c = true)
    (text : List Char) : words (text ++ blanks) = words text := by
  cases blanks with
  | nil => rw [List.append_nil]
  | cons c blanks =>
    obtain ⟨first, others⟩ := List.forall_mem_cons.mp all
    rw [words_append_cons first, words_blanks others, List.append_nil]

theorem words_trim (text : List Char) : words (trim text) = words text := by
  have left : words (trimLeft text) = words text := by
    have all : ∀ c ∈ text.takeWhile isBlank, isBlank c = true := fun c => List.mem_takeWhile_imp
    have dropped := words_blanks_append all (trimLeft text)
    rwa [trimLeft, List.takeWhile_append_dropWhile, eq_comm] at dropped
  obtain ⟨blanks, split, all⟩ := trimRight_takes (trimLeft text)
  have right := words_append_blanks all (trimRight (trimLeft text))
  rw [← split, left] at right
  rw [trim, right]

theorem words_run {run : List Char} (someChar : run ≠ []) (all : ∀ c ∈ run, isBlank c = false) :
    words run = [run] := by
  rw [words, splitWhere_eq_splitOnP, List.splitOnP_eq_singleton all]
  simp [someChar]

end Reconcile.Text
