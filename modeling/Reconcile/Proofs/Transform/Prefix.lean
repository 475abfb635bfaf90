import Reconcile.Proofs.Extraction
import Reconcile.Proofs.Text.Removal

namespace Reconcile

structure Text.Removed (pattern text : List Char) : Prop where
  absent : pattern = [] ∨ ¬ pattern <:+: text → removeFirst pattern text = text
  /-- No occurrence begins before the one that is taken out, among the characters and among the
  bytes. -/
  present : pattern <:+: text → ∃ before after, FirstOccurrence pattern text before after ∧
    removeFirst pattern text = before ++ after ∧
    ∀ earlier later, pattern ≠ [] →
      Utf8.encode text = earlier ++ (Utf8.encode pattern ++ later) →
      Utf8.size before ≤ earlier.length
  atStart : removeFirst pattern (pattern ++ text) = text

theorem Text.removed (pattern text : List Char) : Removed pattern text where
  absent none := by
    rcases none with rfl | absent
    · exact removeFirst_append [] text
    · exact removeFirst_of_absent absent
  present occurs := by
    obtain ⟨before, after, here⟩ := exists_firstOccurrence occurs
    exact ⟨before, after, here, here.removeFirst_eq, fun _ _ some found => here.size_le some found⟩
  atStart := removeFirst_append pattern text

namespace Transform

structure TakesOut (address : Address) (element : Value) (text : String) : Prop where
  found : ∀ values, address.resolve (.array [element]) = .ok values →
    (removePrefix address).apply element (.string text) =
      .ok (.string (.ofList
        (Text.removeFirst (Text.join ',' (values.map Value.plain)) text.toList)))
  nothing : address.resolve (.array [element]) = .ok [] →
    (removePrefix address).apply element (.string text) = .ok (.string text)
  fault : ∀ cause, address.resolve (.array [element]) = .error cause →
    (removePrefix address).apply element (.string text) = .error (.extraction cause)

theorem takesOut (address : Address) (element : Value) (text : String) :
    TakesOut address element text := by
  have found : ∀ values, address.resolve (.array [element]) = .ok values →
      (removePrefix address).apply element (.string text) =
        .ok (.string (.ofList
          (Text.removeFirst (Text.join ',' (values.map Value.plain)) text.toList))) := by
    intro values resolved
    rw [apply, prefixFor, resolved]
    rfl
  refine ⟨found, fun resolved => ?_, fun cause failed => ?_⟩
  · have unchanged : Text.removeFirst [] text.toList = text.toList :=
      (Text.removed [] text.toList).absent (.inl rfl)
    rw [found [] resolved, List.map_nil, Text.join, List.intercalate_nil, unchanged,
      String.ofList_toList]
  · rw [apply, prefixFor, failed]
    rfl

/-- The first occurrence of a text is taken out, and the text is what the address finds in the
element. -/
theorem first_occurrence_taken_out :
    (∀ pattern text : List Char, Text.Removed pattern text) ∧
      ∀ (address : Address) (element : Value) (text : String), TakesOut address element text :=
  ⟨Text.removed, takesOut⟩

example : Text.removeFirst "aab".toList "aaabaab".toList = "aaab".toList := by decide

example :
    (removePrefix ⟨"$[*].tags[*]", .query⟩).apply
        (.object [("tags", .array [.string "a", .bool true])]) (.string "x-a,true-1") =
      .ok (.string "x--1") := by cbv

end Transform

end Reconcile
