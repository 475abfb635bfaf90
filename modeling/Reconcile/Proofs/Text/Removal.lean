import Reconcile.Proofs.Text.Utf8
import Reconcile.Text.Search

namespace Reconcile.Text

/-- What stands before and after the first occurrence of a text. -/
structure FirstOccurrence (pattern text before after : List Char) : Prop where
  split : text = before ++ (pattern ++ after)
  first : ∀ earlier later, text = earlier ++ (pattern ++ later) → before.length ≤ earlier.length

variable {pattern text before after : List Char}

theorem removeFirst_append (pattern after : List Char) :
    removeFirst pattern (pattern ++ after) = after := by
  cases whole : pattern ++ after with
  | nil => rw [(List.append_eq_nil_iff.mp whole).2, removeFirst]
  | cons c rest =>
    have starts : pattern.isPrefixOf (c :: rest) = true := by
      rw [← whole, List.isPrefixOf_iff_prefix]
      exact List.prefix_append pattern after
    rw [removeFirst, if_pos starts, ← whole, List.drop_left]

theorem removeFirst_cons {c : Char} (elsewhere : ¬ pattern <+: c :: text) :
    removeFirst pattern (c :: text) = c :: removeFirst pattern text := by
  rw [removeFirst, if_neg (by rwa [List.isPrefixOf_iff_prefix])]

theorem removeFirst_of_absent (absent : ¬ pattern <:+: text) : removeFirst pattern text = text := by
  induction text with
  | nil => rfl
  | cons c text ih =>
    rw [List.infix_cons_iff, not_or] at absent
    rw [removeFirst_cons absent.1, ih absent.2]

theorem exists_firstOccurrence (occurs : pattern <:+: text) :
    ∃ before after, FirstOccurrence pattern text before after := by
  induction text with
  | nil =>
    obtain rfl := List.infix_nil.mp occurs
    exact ⟨[], [], rfl, by simp⟩
  | cons c text ih =>
    by_cases starts : pattern <+: c :: text
    · obtain ⟨after, split⟩ := starts
      exact ⟨[], after, split.symm, by simp⟩
    · have further : pattern <:+: text := (List.infix_cons_iff.mp occurs).resolve_left starts
      obtain ⟨before, after, split, first⟩ := ih further
      refine ⟨c :: before, after, by rw [split, List.cons_append], ?_⟩
      intro earlier later found
      cases earlier with
      | nil => exact absurd ⟨later, found.symm⟩ starts
      | cons d earlier =>
        cases found
        exact Nat.succ_le_succ (first earlier later rfl)

namespace FirstOccurrence

theorem of_cons {c : Char} (here : FirstOccurrence pattern (c :: text) (c :: before) after) :
    ¬ pattern <+: c :: text ∧ FirstOccurrence pattern text before after := by
  refine ⟨?_, ?_, ?_⟩
  · rintro ⟨later, found⟩
    exact absurd (here.first [] later found.symm) (by simp)
  · exact (List.cons.inj here.split).2
  · intro earlier later found
    exact Nat.le_of_succ_le_succ (here.first (c :: earlier) later (by rw [found, List.cons_append]))

theorem removeFirst_eq (here : FirstOccurrence pattern text before after) :
    removeFirst pattern text = before ++ after := by
  induction before generalizing text with
  | nil =>
    rw [here.split]
    exact removeFirst_append pattern after
  | cons c before ih =>
    obtain ⟨rest, rfl⟩ : ∃ rest, text = c :: rest := ⟨_, here.split⟩
    obtain ⟨elsewhere, there⟩ := here.of_cons
    rw [removeFirst_cons elsewhere, ih there, List.cons_append]

/-- No occurrence among the bytes begins earlier, not even inside a character. -/
theorem size_le (here : FirstOccurrence pattern text before after) (nonempty : pattern ≠ [])
    {earlier later : List UInt8}
    (found : Utf8.encode text = earlier ++ (Utf8.encode pattern ++ later)) :
    Utf8.size before ≤ earlier.length := by
  obtain ⟨start, rest, split, rfl⟩ := Utf8.split_of_encode nonempty found
  have starts : before <+: start :=
    List.prefix_of_prefix_length_le ⟨_, here.split.symm⟩ ⟨_, split.symm⟩
      (here.first start rest split)
  obtain ⟨between, rfl⟩ := starts
  rw [Utf8.encode_append, List.length_append, Utf8.size]
  exact Nat.le_add_right _ _

end FirstOccurrence

end Reconcile.Text
