import Reconcile.Proofs.Json.Number
import Reconcile.Proofs.Json.Shape
import Reconcile.Proofs.Json.Strings

namespace Reconcile

open Text

def Visible (text : List Char) : Prop := ∀ c ∈ text, 0x20 ≤ c.toNat

namespace Visible

theorem of_all {text : List Char} (all : text.all (0x20 ≤ ·.toNat) = true) : Visible text := by
  simpa [Visible] using all

theorem append {text more : List Char} (visible : Visible text) (moreVisible : Visible more) :
    Visible (text ++ more) := by
  intro c member
  rcases List.mem_append.mp member with member | member
  · exact visible c member
  · exact moreVisible c member

theorem cons {c : Char} {text : List Char} (shown : 0x20 ≤ c.toNat) (visible : Visible text) :
    Visible (c :: text) := by
  intro d member
  rcases List.mem_cons.mp member with rfl | member
  · exact shown
  · exact visible d member

theorem single {c : Char} (shown : 0x20 ≤ c.toNat) : Visible [c] := .cons shown (by simp [Visible])

theorem not_mem {text : List Char} (visible : Visible text) {c : Char} (control : c.toNat < 0x20) :
    c ∉ text := fun member => absurd (visible c member) (Nat.not_le_of_lt control)

end Visible

namespace Json

theorem visible_escape (c : Char) : Visible (escape c) := by
  rcases escape_cases c with ⟨shown, -, -, plain⟩ | ⟨shown, escaped⟩ |
    ⟨-, letter, rest, escaped, shown, others⟩
  · rw [plain]
    exact .single shown
  · rw [escaped]
    exact .cons (by decide) (.single shown)
  · rw [escaped]
    exact .cons (by decide) (.cons shown fun d member => (others d member).2.2)

theorem visible_quote (text : List Char) : Visible (quote text) := by
  refine .append (.cons (by decide) ?_) (.single (by decide))
  intro d member
  obtain ⟨c, -, member⟩ := List.mem_flatMap.mp member
  exact visible_escape c d member

theorem visible_json (n : Number) : Visible n.json := by
  intro c member
  have number := isNumberChar_of_mem_json n c member
  simp only [isNumberChar, Bool.or_eq_true, beq_iff_eq, or_assoc] at number
  rcases number with digit | rfl | rfl | rfl | rfl
  · exact Nat.le_trans (by decide) (digit_bounds digit).1
  all_goals decide

end Json

open Json

mutual

theorem Value.visible_jsonChars (value : Value) : Visible value.jsonChars := by
  match value with
  | .null =>
    rw [Value.jsonChars]
    exact .of_all (by decide)
  | .bool true =>
    rw [Value.jsonChars]
    exact .of_all (by decide)
  | .bool false =>
    rw [Value.jsonChars]
    exact .of_all (by decide)
  | .number n =>
    rw [Value.jsonChars]
    exact visible_json n
  | .string s =>
    rw [Value.jsonChars]
    exact visible_quote s.toList
  | .array items =>
    rw [Value.jsonChars]
    exact .cons (by decide) (visible_itemsJson items)
  | .object members =>
    rw [Value.jsonChars]
    exact .cons (by decide) (visible_membersJson members)

theorem visible_itemsJson (items : List Value) : Visible (itemsJson items) := by
  match items with
  | [] =>
    rw [itemsJson]
    exact .of_all (by decide)
  | [item] =>
    rw [itemsJson]
    exact .append item.visible_jsonChars (.single (by decide))
  | item :: next :: items =>
    rw [itemsJson_cons]
    exact .append item.visible_jsonChars (.cons (by decide) (visible_itemsJson (next :: items)))

theorem visible_membersJson (members : List (String × Value)) :
    Visible (membersJson members) := by
  match members with
  | [] =>
    rw [membersJson]
    exact .of_all (by decide)
  | [(name, value)] =>
    rw [membersJson_cons]
    exact .append (visible_quote name.toList) (.cons (by decide)
      (.append value.visible_jsonChars (.single (by decide))))
  | (name, value) :: next :: members =>
    rw [membersJson_cons]
    exact .append (visible_quote name.toList) (.cons (by decide)
      (.append value.visible_jsonChars (.cons (by decide) (visible_membersJson (next :: members)))))

end

end Reconcile
