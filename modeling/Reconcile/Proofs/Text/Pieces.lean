import Mathlib.Data.List.TakeDrop
import Mathlib.Data.List.TakeWhile
import Reconcile.Text.Blank
import Reconcile.Text.Search

namespace Reconcile.Text

/-- A text that ends or goes on with no character of a kind. -/
def Stops {α : Type} (kind : α → Bool) (rest : List α) : Prop := ∀ a ∈ rest.head?, kind a = false

theorem stops_nil {α : Type} (kind : α → Bool) : Stops kind [] := by simp [Stops]

theorem stops_cons {α : Type} {kind : α → Bool} {a : α} (other : kind a = false) (rest : List α) :
    Stops kind (a :: rest) := by simpa [Stops] using other

theorem span_append {α : Type} {kind : α → Bool} {run rest : List α}
    (all : ∀ a ∈ run, kind a = true) (stops : Stops kind rest) :
    (run ++ rest).span kind = (run, rest) := by
  rw [List.span_eq_takeWhile_dropWhile, List.takeWhile_append_of_pos all,
    List.dropWhile_append_of_pos all]
  cases rest with
  | nil => simp
  | cons a rest =>
    have other : kind a = false := stops a rfl
    simp [other]

theorem of_span {α : Type} {kind : α → Bool} {input run rest : List α}
    (spanned : input.span kind = (run, rest)) :
    input = run ++ rest ∧ (∀ a ∈ run, kind a = true) ∧ Stops kind rest := by
  rw [List.span_eq_takeWhile_dropWhile, Prod.mk.injEq] at spanned
  obtain ⟨rfl, rfl⟩ := spanned
  refine ⟨List.takeWhile_append_dropWhile.symm, fun a => List.mem_takeWhile_imp, ?_⟩
  intro a first
  have ends := List.head?_dropWhile_not kind input
  rw [Option.mem_def.mp first] at ends
  exact ends

theorem exists_run {α : Type} (kind : α → Bool) (input : List α) :
    ∃ run rest, input = run ++ rest ∧ (∀ a ∈ run, kind a = true) ∧ Stops kind rest :=
  ⟨_, _, of_span (List.span_eq_takeWhile_dropWhile kind input)⟩

theorem join_cons_cons (separator : Char) (first second : List Char) (texts : List (List Char)) :
    join separator (first :: second :: texts) =
      first ++ separator :: join separator (second :: texts) := by
  simp [join, List.intercalate]

theorem length_le_join (separator : Char) (texts : List (List Char)) :
    texts.length ≤ (join separator texts).length + 1 := by
  induction texts with
  | nil => simp
  | cons first texts ih =>
    cases texts with
    | nil => simp
    | cons second texts =>
      rw [join_cons_cons]
      simp only [List.length_append, List.length_cons] at ih ⊢
      omega

theorem length_le_flatMap {α β : Type} {texts : α → List β} (someText : ∀ a, texts a ≠ [])
    (items : List α) : items.length ≤ (items.flatMap texts).length := by
  induction items with
  | nil => simp
  | cons item items ih =>
    have first := List.length_pos_iff.mpr (someText item)
    simp only [List.flatMap_cons, List.length_append, List.length_cons]
    omega

theorem trim_of_ends {text : List Char} (first : ∀ c ∈ text.head?, isBlank c = false)
    (last : ∀ c ∈ text.getLast?, isBlank c = false) : trim text = text := by
  have noneBefore : trimLeft text = text := by
    cases text with
    | nil => rfl
    | cons c text => simp [trimLeft, first c rfl]
  have noneAfter : trimRight text = text := by
    rw [trimRight]
    cases reversed : text.reverse with
    | nil => simpa using reversed.symm
    | cons c others =>
      have noBlank := last c (by simp [← List.head?_reverse, reversed])
      rw [List.dropWhile_cons_of_neg (by simp [noBlank]), ← reversed, List.reverse_reverse]
  rw [trim, noneBefore, noneAfter]

theorem trimRight_append (before : List Char) {c : Char} (noBlank : isBlank c = false)
    (rest : List Char) : trimRight (before ++ c :: rest) = before ++ c :: trimRight rest := by
  have split : (before ++ c :: rest).reverse = rest.reverse ++ c :: before.reverse := by simp
  rw [trimRight, split, List.dropWhile_append]
  split
  · rename_i allBlank
    simp [trimRight, List.isEmpty_iff.mp allBlank, noBlank]
  · simp [trimRight]

theorem trimLeft_append {before : List Char} (some : trimLeft before ≠ []) (after : List Char) :
    trimLeft (before ++ after) = trimLeft before ++ after := by
  rw [trimLeft] at some
  rw [trimLeft, List.dropWhile_append, if_neg (by simpa using some)]
  rfl

theorem trim_append {before : List Char} (some : trimLeft before ≠ []) {c : Char}
    (noBlank : isBlank c = false) (rest : List Char) :
    trim (before ++ c :: rest) = trimLeft before ++ c :: trimRight rest := by
  rw [trim, trimLeft_append some, trimRight_append _ noBlank]

theorem trimRight_takes (text : List Char) :
    ∃ blanks, text = trimRight text ++ blanks ∧ ∀ c ∈ blanks, isBlank c = true := by
  obtain ⟨split, all, -⟩ := of_span (List.span_eq_takeWhile_dropWhile isBlank text.reverse)
  refine ⟨(text.reverse.takeWhile isBlank).reverse, ?_, fun c member => ?_⟩
  · rw [trimRight, ← List.reverse_append, ← split, List.reverse_reverse]
  · exact all c (List.mem_reverse.mp member)

end Reconcile.Text
