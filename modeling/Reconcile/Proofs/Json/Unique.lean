import Reconcile.Proofs.Json.Shape
import Reconcile.Proofs.Json.Strings

namespace Reconcile

open Text

namespace Json

theorem point_mem_positional (digits : List Char) (exponent : Int) :
    '.' ∈ Decimal.positional floatStyle.wholeMark digits exponent := by
  unfold Decimal.positional
  split
  · simp [floatStyle]
  · dsimp only
    split <;> simp

theorem mark_mem_scientific (digits : List Char) (leading : Int) :
    'e' ∈ Decimal.scientific digits leading := by
  simp [Decimal.scientific]

theorem mark_mem_float (x : Binary64) :
    '.' ∈ Number.json (.float x) ∨ 'e' ∈ Number.json (.float x) := by
  simp only [Number.json, NumberStyle.render]
  split <;> split <;>
    simp [point_mem_positional, mark_mem_scientific]

theorem noMark_of_mem_renderInt {n : Int} {c : Char} (member : c ∈ renderInt n) :
    c ≠ '.' ∧ c ≠ 'e' := by
  have signOrDigit : c = '-' ∨ c.isDigit = true := by
    rw [renderInt] at member
    split at member
    · exact (List.mem_cons.mp member).imp_right isDigit_of_mem_repr
    · exact .inr (isDigit_of_mem_repr member)
  rcases signOrDigit with rfl | digit
  · decide
  · constructor <;> rintro rfl <;> cases digit

theorem renderInt_injective {n m : Int} (same : renderInt n = renderInt m) : n = m := by
  have digits {k l : Nat} (sameDigits : k.repr.toList = l.repr.toList) : k = l := by
    rw [← decimalValue_repr k, sameDigits, decimalValue_repr]
  have noSign {k l : Nat} (signed : '-' :: k.repr.toList = l.repr.toList) : False := by
    have digit : '-'.isDigit = true := isDigit_of_mem_repr (signed ▸ List.mem_cons_self)
    cases digit
  unfold renderInt at same
  split at same <;> split at same
  · have absolute := digits (List.cons.inj same).2
    omega
  · exact (noSign same).elim
  · exact (noSign same.symm).elim
  · have absolute := digits same
    omega

theorem eq_int_of_json {n : Int} {other : Number} (same : other.json = renderInt n) :
    other = .int n := by
  cases other with
  | int m => rw [renderInt_injective same]
  | float x =>
    have marked := mark_mem_float x
    rw [same] at marked
    rcases marked with point | mark
    · exact absurd rfl (noMark_of_mem_renderInt point).1
    · exact absurd rfl (noMark_of_mem_renderInt mark).2

theorem renderInt_append_inj {n : Int} {other : Number} {rest otherRest : List Char}
    (ends : Stops isNumberChar rest) (otherEnds : Stops isNumberChar otherRest)
    (same : other.json ++ otherRest = renderInt n ++ rest) : other = .int n ∧ otherRest = rest := by
  have spanned := span_append (isNumberChar_of_mem_json (.int n)) ends
  have otherSpanned := span_append (isNumberChar_of_mem_json other) otherEnds
  have whole : (Number.int n).json ++ rest = other.json ++ otherRest := same.symm
  rw [whole, otherSpanned, Prod.mk.injEq] at spanned
  exact ⟨eq_int_of_json spanned.1, spanned.2⟩

end Json

namespace Value

mutual

/-- All numbers of the value are whole. -/
def FloatFree : Value → Prop
  | .number (.float _) => False
  | .array items => ItemsFloatFree items
  | .object members => MembersFloatFree members
  | _ => True

def ItemsFloatFree : List Value → Prop
  | [] => True
  | item :: items => item.FloatFree ∧ ItemsFloatFree items

def MembersFloatFree : List (String × Value) → Prop
  | [] => True
  | (_, value) :: members => value.FloatFree ∧ MembersFloatFree members

end

end Value

open Json

mutual

theorem Value.jsonChars_append_inj (value : Value) (whole : value.FloatFree) {other : Value}
    {rest otherRest : List Char} (ends : Stops isNumberChar rest)
    (otherEnds : Stops isNumberChar otherRest)
    (same : other.jsonChars ++ otherRest = value.jsonChars ++ rest) :
    other = value ∧ otherRest = rest := by
  have sameKind := Value.kind_eq_of_append same
  match value with
  | .null =>
    cases other <;> cases sameKind
    exact ⟨rfl, List.append_cancel_left same⟩
  | .bool b =>
    cases other <;> cases sameKind
    rename_i c
    cases b <;> cases c
    · exact ⟨rfl, List.append_cancel_left same⟩
    · simp [Value.jsonChars] at same
    · simp [Value.jsonChars] at same
    · exact ⟨rfl, List.append_cancel_left same⟩
  | .number n =>
    cases other <;> cases sameKind
    rename_i m
    cases n with
    | float x => exact whole.elim
    | int n =>
      rw [Value.jsonChars, Value.jsonChars] at same
      obtain ⟨rfl, sameRest⟩ := renderInt_append_inj ends otherEnds same
      exact ⟨rfl, sameRest⟩
  | .string s =>
    cases other <;> cases sameKind
    rename_i t
    rw [Value.jsonChars, Value.jsonChars] at same
    obtain ⟨sameText, sameRest⟩ := quote_append_inj same
    exact ⟨by rw [String.toList_inj.mp sameText], sameRest⟩
  | .array items =>
    cases other <;> cases sameKind
    rename_i others
    rw [Value.jsonChars, Value.jsonChars] at same
    rw [Value.FloatFree] at whole
    obtain ⟨rfl, sameRest⟩ := itemsJson_append_inj items whole (List.cons.inj same).2
    exact ⟨rfl, sameRest⟩
  | .object members =>
    cases other <;> cases sameKind
    rename_i others
    rw [Value.jsonChars, Value.jsonChars] at same
    rw [Value.FloatFree] at whole
    obtain ⟨rfl, sameRest⟩ := membersJson_append_inj members whole (List.cons.inj same).2
    exact ⟨rfl, sameRest⟩

theorem itemsJson_append_inj (items : List Value) (whole : Value.ItemsFloatFree items)
    {others : List Value} {rest otherRest : List Char}
    (same : itemsJson others ++ otherRest = itemsJson items ++ rest) :
    others = items ∧ otherRest = rest := by
  -- No item starts with the bracket that ends the list.
  have noBracket (item : Value) (after : List Char) {before : List Char} :
      ']' :: before ≠ item.jsonChars ++ after := by
    intro start
    obtain ⟨c, text, written, first⟩ := item.jsonChars_eq_cons
    rw [written, List.cons_append] at start
    exact ne_of_kindOf? first (by decide) (List.cons.inj start).1.symm
  match items, others with
  | [], [] => exact ⟨rfl, List.append_cancel_left same⟩
  | [], other :: others =>
    rw [itemsJson_cons, List.append_assoc] at same
    exact absurd same.symm (noBracket other _)
  | item :: items, [] =>
    rw [itemsJson_cons, List.append_assoc] at same
    exact absurd same (noBracket item _)
  | item :: items, other :: others =>
    rw [Value.ItemsFloatFree] at whole
    rw [itemsJson_cons, itemsJson_cons, List.append_assoc, List.append_assoc] at same
    obtain ⟨rfl, sameTail⟩ := Value.jsonChars_append_inj item whole.1
      (stops_itemsTail (by decide) (by decide) items rest)
      (stops_itemsTail (by decide) (by decide) others otherRest) same
    match items, others with
    | [], [] => exact ⟨rfl, (List.cons.inj sameTail).2⟩
    | [], next :: others => simp [itemsTail] at sameTail
    | next :: items, [] => simp [itemsTail] at sameTail
    | next :: items, otherNext :: others =>
      obtain ⟨sameItems, sameRest⟩ :=
        itemsJson_append_inj (next :: items) whole.2 (List.cons.inj sameTail).2
      exact ⟨by rw [sameItems], sameRest⟩

theorem membersJson_append_inj (members : List (String × Value))
    (whole : Value.MembersFloatFree members) {others : List (String × Value)}
    {rest otherRest : List Char}
    (same : membersJson others ++ otherRest = membersJson members ++ rest) :
    others = members ∧ otherRest = rest := by
  match members, others with
  | [], [] => exact ⟨rfl, List.append_cancel_left same⟩
  | [], (otherName, other) :: others => simp [membersJson_cons, membersJson, quote] at same
  | (name, value) :: members, [] => simp [membersJson_cons, membersJson, quote] at same
  | (name, value) :: members, (otherName, other) :: others =>
    rw [Value.MembersFloatFree] at whole
    rw [membersJson_cons, membersJson_cons, List.append_assoc, List.append_assoc] at same
    obtain ⟨sameName, sameValue⟩ := quote_append_inj same
    rw [List.cons_append, List.cons_append, List.cons.injEq, List.append_assoc,
      List.append_assoc] at sameValue
    obtain ⟨rfl, sameTail⟩ := Value.jsonChars_append_inj value whole.1
      (stops_membersTail (by decide) (by decide) members rest)
      (stops_membersTail (by decide) (by decide) others otherRest) sameValue.2
    rw [String.toList_inj.mp sameName]
    match members, others with
    | [], [] => exact ⟨rfl, (List.cons.inj sameTail).2⟩
    | [], next :: others => simp [membersTail] at sameTail
    | next :: members, [] => simp [membersTail] at sameTail
    | next :: members, otherNext :: others =>
      obtain ⟨sameMembers, sameRest⟩ :=
        membersJson_append_inj (next :: members) whole.2 (List.cons.inj sameTail).2
      exact ⟨by rw [sameMembers], sameRest⟩

end

theorem Value.jsonChars_injective {value other : Value} (whole : value.FloatFree)
    (same : other.jsonChars = value.jsonChars) : other = value := by
  have ends := stops_nil isNumberChar
  exact (Value.jsonChars_append_inj value whole ends ends
    (congrArg (· ++ []) same)).1

end Reconcile
