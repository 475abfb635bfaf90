import Reconcile.Proofs.Json.Number

namespace Reconcile

open Text

namespace Json

def kindOf? (c : Char) : Option Value.Kind :=
  if c = 'n' then some .null
  else if c = 't' ∨ c = 'f' then some .boolean
  else if c = '-' ∨ c.isDigit = true then some .number
  else if c = '"' then some .string
  else if c = '[' then some .array
  else if c = '{' then some .object
  else none

theorem kindOf?_digit {c : Char} (digit : c.isDigit = true) : kindOf? c = some .number := by
  have other {d : Char} (noDigit : d.isDigit = false) : c ≠ d := by
    rintro rfl
    rw [noDigit] at digit
    cases digit
  simp [kindOf?, digit, other]

theorem ne_of_kindOf? {c d : Char} {kind : Value.Kind} (found : kindOf? c = some kind)
    (none : kindOf? d = none) : c ≠ d := by
  rintro rfl
  rw [none] at found
  cases found

theorem ascii_of_kindOf? {c : Char} {kind : Value.Kind} (found : kindOf? c = some kind) :
    c.toNat < 0x80 := by
  by_cases digit : c.isDigit = true
  · have bounds := digit_bounds digit
    omega
  · have listed : c ∈ ['n', 't', 'f', '-', '"', '[', '{'] := by
      by_contra other
      simp only [List.mem_cons, List.not_mem_nil, or_false, not_or] at other
      simp [kindOf?, digit, other] at found
    simp only [List.mem_cons, List.not_mem_nil, or_false] at listed
    rcases listed with rfl | rfl | rfl | rfl | rfl | rfl | rfl <;> decide

theorem isBlank_of_kindOf? {c : Char} {kind : Value.Kind} (found : kindOf? c = some kind) :
    isBlank c = false := by
  have noBlank : ∀ n < 0x80, isBlank (.ofNat n) = true → kindOf? (.ofNat n) = none := by decide
  rw [Bool.eq_false_iff]
  intro blank
  rw [← Char.ofNat_toNat c] at blank found
  rw [noBlank c.toNat (by rw [Char.ofNat_toNat] at found; exact ascii_of_kindOf? found) blank]
    at found
  cases found

theorem positional_eq_cons {first : Char} (digit : first.isDigit = true)
    (rest wholeMark : List Char) (exponent : Int) : ∃ c others,
      Decimal.positional wholeMark (first :: rest) exponent = c :: others ∧ c.isDigit = true := by
  unfold Decimal.positional
  split
  · exact ⟨first, _, rfl, digit⟩
  · dsimp only
    split
    · exact ⟨'0', _, rfl, rfl⟩
    · rename_i more
      obtain ⟨before, count⟩ := Nat.exists_eq_succ_of_ne_zero
        (show (first :: rest).length - (-exponent).toNat ≠ 0 by omega)
      exact ⟨first, _, by rw [count]; rfl, digit⟩

theorem scientific_eq_cons (first : Char) (rest : List Char) (leading : Int) :
    ∃ others, Decimal.scientific (first :: rest) leading = first :: others := by
  cases rest <;> exact ⟨_, rfl⟩

theorem json_eq_cons (n : Number) :
    ∃ c rest, n.json = c :: rest ∧ kindOf? c = some .number := by
  cases n with
  | int n =>
    obtain ⟨first, rest, written, digit, -⟩ := repr_eq_cons n.natAbs
    simp only [Number.json, renderInt]
    split
    · exact ⟨'-', _, rfl, by decide⟩
    · exact ⟨first, rest, written, kindOf?_digit digit⟩
  | float x =>
    obtain ⟨first, rest, written, digit, -⟩ := repr_eq_cons (x.shortest floatStyle.tie).digits
    simp only [Number.json, NumberStyle.render, written]
    split
    · exact ⟨'-', _, rfl, by decide⟩
    split
    · obtain ⟨c, others, split, isDigit⟩ :=
        positional_eq_cons digit rest floatStyle.wholeMark (x.shortest floatStyle.tie).exponent
      exact ⟨c, others, split, kindOf?_digit isDigit⟩
    · obtain ⟨others, split⟩ := scientific_eq_cons first rest
        ((x.shortest floatStyle.tie).exponent + (first :: rest).length - 1)
      exact ⟨first, others, split, kindOf?_digit digit⟩

end Json

namespace Value

open Json

theorem jsonChars_eq_cons (value : Value) :
    ∃ c rest, value.jsonChars = c :: rest ∧ kindOf? c = some value.kind := by
  cases value with
  | null => exact ⟨'n', _, by rw [jsonChars], rfl⟩
  | bool b =>
    cases b with
    | true => exact ⟨'t', _, by rw [jsonChars], rfl⟩
    | false => exact ⟨'f', _, by rw [jsonChars], rfl⟩
  | number n =>
    obtain ⟨c, rest, written, first⟩ := json_eq_cons n
    exact ⟨c, rest, by rw [jsonChars, written], first⟩
  | string s => exact ⟨'"', _, by rw [jsonChars, quote, List.cons_append], rfl⟩
  | array items => exact ⟨'[', _, by rw [jsonChars], rfl⟩
  | object members => exact ⟨'{', _, by rw [jsonChars], rfl⟩

/-- Texts that start alike are those of values of one kind. -/
theorem kind_eq_of_append {value other : Value} {rest otherRest : List Char}
    (same : other.jsonChars ++ otherRest = value.jsonChars ++ rest) : other.kind = value.kind := by
  obtain ⟨c, after, written, first⟩ := value.jsonChars_eq_cons
  obtain ⟨d, otherAfter, otherWritten, otherFirst⟩ := other.jsonChars_eq_cons
  rw [written, otherWritten, List.cons_append, List.cons_append] at same
  rw [(List.cons.inj same).1, first, Option.some.injEq] at otherFirst
  exact otherFirst.symm

end Value

def itemsTail : List Value → List Char
  | [] => [']']
  | items => ',' :: itemsJson items

def membersTail : List (String × Value) → List Char
  | [] => ['}']
  | members => ',' :: membersJson members

theorem itemsJson_cons (item : Value) (items : List Value) :
    itemsJson (item :: items) = item.jsonChars ++ itemsTail items := by
  cases items <;> simp [itemsJson, itemsTail]

theorem membersJson_cons (name : String) (value : Value) (members : List (String × Value)) :
    membersJson ((name, value) :: members) =
      Json.quote name.toList ++ ':' :: (value.jsonChars ++ membersTail members) := by
  cases members <;> simp [membersJson, membersTail]

theorem stops_itemsTail {kind : Char → Bool} (comma : kind ',' = false) (bracket : kind ']' = false)
    (items : List Value) (rest : List Char) : Stops kind (itemsTail items ++ rest) := by
  cases items with
  | nil => exact stops_cons bracket rest
  | cons item items => exact stops_cons comma _

theorem stops_membersTail {kind : Char → Bool} (comma : kind ',' = false)
    (brace : kind '}' = false) (members : List (String × Value)) (rest : List Char) :
    Stops kind (membersTail members ++ rest) := by
  cases members with
  | nil => exact stops_cons brace rest
  | cons member members => exact stops_cons comma _

theorem getLast?_itemsJson (items : List Value) : (itemsJson items).getLast? = some ']' := by
  induction items with
  | nil => rfl
  | cons item items ih =>
    rw [itemsJson_cons]
    cases items with
    | nil => simp [itemsTail]
    | cons next items => simp [itemsTail, List.getLast?_cons, ih]

theorem getLast?_membersJson (members : List (String × Value)) :
    (membersJson members).getLast? = some '}' := by
  induction members with
  | nil => rfl
  | cons member members ih =>
    rw [membersJson_cons]
    cases members with
    | nil => simp [membersTail, List.getLast?_cons]
    | cons next members => simp [membersTail, List.getLast?_cons, ih]

theorem trim_jsonChars {value : Value} (nested : value.kind = .array ∨ value.kind = .object) :
    trim value.jsonChars = value.jsonChars := by
  cases value with
  | array items =>
    have last := getLast?_itemsJson items
    refine trim_of_ends ?_ ?_ <;> simp [Value.jsonChars, List.getLast?_cons, last] <;> decide
  | object members =>
    have last := getLast?_membersJson members
    refine trim_of_ends ?_ ?_ <;> simp [Value.jsonChars, List.getLast?_cons, last] <;> decide
  | _ => simp [Value.kind] at nested

end Reconcile
