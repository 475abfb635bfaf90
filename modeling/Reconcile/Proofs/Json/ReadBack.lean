import Reconcile.Proofs.Document.Members
import Reconcile.Proofs.Json.Unique

namespace Reconcile

open Text

namespace Value

mutual

def depth : Value → Nat
  | .array items => itemsDepth items + 1
  | .object members => membersDepth members + 1
  | _ => 0

def itemsDepth : List Value → Nat
  | [] => 0
  | item :: items => max item.depth (itemsDepth items)

def membersDepth : List (String × Value) → Nat
  | [] => 0
  | (_, value) :: members => max value.depth (membersDepth members)

end

structure Within (value : Value) (bound : Nat) : Prop where
  whole : value.FloatFree
  shallow : value.depth ≤ bound

namespace Within

theorem mono {value : Value} {bound more : Nat} (within : value.Within bound) (le : bound ≤ more) :
    value.Within more :=
  ⟨within.whole, Nat.le_trans within.shallow le⟩

end Within

@[simp] theorem within_string (text : String) (bound : Nat) : (string text).Within bound :=
  ⟨True.intro, Nat.zero_le bound⟩

@[simp] theorem within_bool (b : Bool) (bound : Nat) : (bool b).Within bound :=
  ⟨True.intro, Nat.zero_le bound⟩

@[simp] theorem within_int (n : Int) (bound : Nat) : (number (.int n)).Within bound :=
  ⟨True.intro, Nat.zero_le bound⟩

@[simp] theorem within_array_iff (items : List Value) (bound : Nat) :
    (array items).Within (bound + 1) ↔ ∀ item ∈ items, item.Within bound := by
  have parts (items : List Value) : (array items).Within (bound + 1) ↔
      ItemsFloatFree items ∧ itemsDepth items ≤ bound :=
    ⟨fun within => ⟨within.whole, Nat.le_of_succ_le_succ within.shallow⟩,
      fun within => ⟨within.1, Nat.succ_le_succ within.2⟩⟩
  induction items with
  | nil => simp [parts, ItemsFloatFree, itemsDepth]
  | cons item items ih =>
    simp only [List.forall_mem_cons, ← ih, parts, ItemsFloatFree, itemsDepth, Nat.max_le]
    constructor
    · rintro ⟨⟨whole, wholeItems⟩, shallow, shallowItems⟩
      exact ⟨⟨whole, shallow⟩, wholeItems, shallowItems⟩
    · rintro ⟨⟨whole, shallow⟩, wholeItems, shallowItems⟩
      exact ⟨⟨whole, wholeItems⟩, shallow, shallowItems⟩

@[simp] theorem within_object_iff (members : List (String × Value)) (bound : Nat) :
    (object members).Within (bound + 1) ↔ ∀ member ∈ members, member.2.Within bound := by
  have parts (members : List (String × Value)) : (object members).Within (bound + 1) ↔
      MembersFloatFree members ∧ membersDepth members ≤ bound :=
    ⟨fun within => ⟨within.whole, Nat.le_of_succ_le_succ within.shallow⟩,
      fun within => ⟨within.1, Nat.succ_le_succ within.2⟩⟩
  induction members with
  | nil => simp [parts, MembersFloatFree, membersDepth]
  | cons member members ih =>
    simp only [List.forall_mem_cons, ← ih, parts, MembersFloatFree, membersDepth, Nat.max_le]
    constructor
    · rintro ⟨⟨whole, wholeMembers⟩, shallow, shallowMembers⟩
      exact ⟨⟨whole, shallow⟩, wholeMembers, shallowMembers⟩
    · rintro ⟨⟨whole, shallow⟩, wholeMembers, shallowMembers⟩
      exact ⟨⟨whole, wholeMembers⟩, shallow, shallowMembers⟩

end Value

namespace Json

variable {fuel depth : Nat}

theorem byte_injective {c d : Char} (ascii : c.toNat < 0x80) (otherAscii : d.toNat < 0x80)
    (same : byte c = byte d) : c = d := by
  have codes := congrArg UInt8.toNat same
  rw [byte, byte, Utf8.toNat_ofNat (by omega), Utf8.toNat_ofNat (by omega)] at codes
  exact Char.toNat_inj.mp codes

theorem skipSpace_cons {b : UInt8} (noSpace : isSpace b = false) (rest : List UInt8) :
    skipSpace (b :: rest) = b :: rest := by
  simp [skipSpace, noSpace]

theorem encode_jsonChars_eq_cons (value : Value) (rest : List Char) :
    ∃ b bytes, Utf8.encode (value.jsonChars ++ rest) = b :: bytes ∧ isSpace b = false ∧
      b ≠ byte ']' := by
  obtain ⟨c, others, written, first⟩ := value.jsonChars_eq_cons
  have ascii := ascii_of_kindOf? first
  have other {d : Char} (otherAscii : d.toNat < 0x80) (none : kindOf? d = none) :
      byte c ≠ byte d := fun same =>
    ne_of_kindOf? first none (byte_injective ascii otherAscii same)
  refine ⟨byte c, Utf8.encode (others ++ rest), ?_, ?_, other (by decide) (by decide)⟩
  · rw [written, List.cons_append, encode_cons ascii]
  · simp only [isSpace, Bool.or_eq_false_iff, beq_eq_false_iff_ne]
    exact ⟨⟨⟨other (by decide) (by decide), other (by decide) (by decide)⟩,
      other (by decide) (by decide)⟩, other (by decide) (by decide)⟩

theorem readValue_quote (fuel depth : Nat) (rest : List UInt8) :
    readValue (fuel + 1) depth (byte '"' :: rest) =
      (readString fuel [] rest).map fun (text, rest) => (.string text, rest) := by
  rw [readValue, skipSpace_cons (by decide)]
  rfl

theorem readValue_bracket (deep : 2 ≤ depth) {b : UInt8} (noSpace : isSpace b = false)
    (rest : List UInt8) :
    readValue (fuel + 1) depth (byte '[' :: b :: rest) =
      if b = byte ']' then .ok (.array [], rest)
      else (readItems fuel (depth - 1) (b :: rest)).map fun (items, rest) =>
        (.array items, rest) := by
  have more : ¬depth ≤ 1 := by omega
  rw [readValue, skipSpace_cons (by decide)]
  simp only [skipSpace_cons noSpace, if_neg more]
  rfl

theorem readValue_brace (deep : 2 ≤ depth) {b : UInt8} (noSpace : isSpace b = false)
    (rest : List UInt8) :
    readValue (fuel + 1) depth (byte '{' :: b :: rest) =
      if b = byte '}' then .ok (.object [], rest)
      else (readMembers fuel (depth - 1) [] (b :: rest)).map fun (members, rest) =>
        (.object members, rest) := by
  have more : ¬depth ≤ 1 := by omega
  rw [readValue, skipSpace_cons (by decide)]
  simp only [skipSpace_cons noSpace, if_neg more]
  rfl

section

variable {input after : List UInt8} {item : Value}

theorem readItems_last (itemRead : readValue fuel depth input = .ok (item, byte ']' :: after)) :
    readItems (fuel + 1) depth input = .ok ([item], after) := by
  rw [readItems, itemRead]
  rfl

theorem readItems_more {b : UInt8} (noSpace : isSpace b = false) (noBracket : b ≠ byte ']')
    (itemRead : readValue fuel depth input = .ok (item, byte ',' :: b :: after)) :
    readItems (fuel + 1) depth input =
      (readItems fuel depth (b :: after)).map fun (items, rest) => (item :: items, rest) := by
  have comma : skipSpace (byte ',' :: b :: after) = byte ',' :: b :: after := rfl
  rw [readItems, itemRead]
  simp only [Bind.bind, Except.bind, comma, skipSpace_cons noSpace, if_neg noBracket]
  cases readItems fuel depth (b :: after) <;> rfl

variable {before : List (String × Value)} {name : String} {value : Value} {text : List UInt8}

theorem readMembers_last (nameRead : readString fuel [] input = .ok (name, byte ':' :: text))
    (valueRead : readValue fuel depth text = .ok (value, byte '}' :: after)) :
    readMembers (fuel + 1) depth before (byte '"' :: input) =
      .ok (Value.insertMember name value before, after) := by
  have colon : skipSpace (byte ':' :: text) = byte ':' :: text := rfl
  rw [readMembers, if_neg (by simp), nameRead]
  simp only [Bind.bind, Except.bind, colon, valueRead]
  rfl

theorem readMembers_more (nameRead : readString fuel [] input = .ok (name, byte ':' :: text))
    (valueRead : readValue fuel depth text = .ok (value, byte ',' :: byte '"' :: after)) :
    readMembers (fuel + 1) depth before (byte '"' :: input) =
      readMembers fuel depth (Value.insertMember name value before) (byte '"' :: after) := by
  have colon : skipSpace (byte ':' :: text) = byte ':' :: text := rfl
  rw [readMembers, if_neg (by simp), nameRead]
  simp only [Bind.bind, Except.bind, colon, valueRead]
  rfl

end

theorem encode_itemsJson_cons (item : Value) (items : List Value) :
    Utf8.encode (itemsJson (item :: items)) =
      Utf8.encode item.jsonChars ++ Utf8.encode (itemsTail items) := by
  rw [itemsJson_cons, Utf8.encode_append]

theorem encode_membersJson_cons (name : String) (value : Value)
    (members : List (String × Value)) :
    Utf8.encode (membersJson ((name, value) :: members)) =
      byte '"' :: (Utf8.encode (name.toList.flatMap escape) ++ byte '"' :: byte ':' ::
        (Utf8.encode value.jsonChars ++ Utf8.encode (membersTail members))) := by
  rw [membersJson_cons, Utf8.encode_append, encode_quote, encode_cons (by decide),
    Utf8.encode_append, List.cons_append, List.append_assoc, List.singleton_append]

theorem encode_itemsTail_eq_cons (items : List Value) :
    ∃ b bytes, Utf8.encode (itemsTail items) = b :: bytes ∧ continuesNumber b = false := by
  cases items with
  | nil => exact ⟨byte ']', [], rfl, by decide⟩
  | cons item items => exact ⟨byte ',', _, encode_cons (by decide) _, by decide⟩

theorem encode_membersTail_eq_cons (members : List (String × Value)) :
    ∃ b bytes, Utf8.encode (membersTail members) = b :: bytes ∧ continuesNumber b = false := by
  cases members with
  | nil => exact ⟨byte '}', [], rfl, by decide⟩
  | cons member members => exact ⟨byte ',', _, encode_cons (by decide) _, by decide⟩

end Json

open Json

mutual

theorem Value.readValue_jsonChars (value : Value) (formed : value.WellFormed)
    (whole : value.FloatFree) {fuel depth : Nat} (shallow : value.depth < depth)
    (enough : (Utf8.encode value.jsonChars).length < fuel) {rest : List UInt8}
    (ends : Stops continuesNumber rest) :
    readValue fuel depth (Utf8.encode value.jsonChars ++ rest) = .ok (value, rest) := by
  obtain ⟨fuel, rfl⟩ := Nat.exists_eq_add_one_of_ne_zero (Nat.ne_zero_of_lt enough)
  match value with
  | .null =>
    rw [Value.jsonChars, readValue]
    rfl
  | .bool true =>
    rw [Value.jsonChars, readValue]
    rfl
  | .bool false =>
    rw [Value.jsonChars, readValue]
    rfl
  | .number (.int n) =>
    rw [Value.jsonChars]
    exact readValue_renderInt formed fuel depth ends
  | .number (.float x) => exact whole.elim
  | .string s =>
    rw [Value.jsonChars, encode_quote] at enough ⊢
    simp only [List.length_cons, List.length_append] at enough
    rw [List.cons_append, List.append_assoc, List.singleton_append, readValue_quote,
      readString_quote s.toList (by omega), String.ofList_toList]
    rfl
  | .array [] =>
    rw [Value.depth] at shallow
    have deep : 2 ≤ depth := by omega
    exact readValue_bracket deep (by decide) rest
  | .array (item :: items) =>
    rw [Value.depth] at shallow
    rw [Value.jsonChars, encode_cons (by decide), List.length_cons] at enough
    rw [Value.jsonChars, encode_cons (by decide), List.cons_append]
    have deep : 2 ≤ depth := by omega
    obtain ⟨b, bytes, starts, noSpace, noBracket⟩ := encode_jsonChars_eq_cons item (itemsTail items)
    rw [← itemsJson_cons] at starts
    have itemsRead := readItems_itemsJson (item :: items) (List.cons_ne_nil _ _) formed whole
      (Nat.lt_sub_of_add_lt shallow) (Nat.lt_of_succ_lt_succ enough) rest
    rw [starts, List.cons_append] at itemsRead ⊢
    rw [readValue_bracket deep noSpace, if_neg noBracket, itemsRead]
    rfl
  | .object [] =>
    rw [Value.depth] at shallow
    have deep : 2 ≤ depth := by omega
    exact readValue_brace deep (by decide) rest
  | .object ((name, value) :: members) =>
    rw [Value.depth] at shallow
    rw [Value.jsonChars, encode_cons (by decide), List.length_cons] at enough
    rw [Value.jsonChars, encode_cons (by decide), List.cons_append]
    have deep : 2 ≤ depth := by omega
    have membersRead := readMembers_membersJson ((name, value) :: members) (List.cons_ne_nil _ _)
      formed.2 whole (Nat.lt_sub_of_add_lt shallow) (Nat.lt_of_succ_lt_succ enough) [] formed.1 rest
    rw [encode_membersJson_cons, List.cons_append] at membersRead ⊢
    rw [readValue_brace deep (by decide), if_neg (by decide), membersRead]
    rfl

theorem readItems_itemsJson (items : List Value) (someItem : items ≠ [])
    (formed : Value.ItemsWellFormed items) (whole : Value.ItemsFloatFree items) {fuel depth : Nat}
    (shallow : Value.itemsDepth items < depth)
    (enough : (Utf8.encode (itemsJson items)).length < fuel) (rest : List UInt8) :
    readItems fuel depth (Utf8.encode (itemsJson items) ++ rest) = .ok (items, rest) := by
  obtain ⟨fuel, rfl⟩ := Nat.exists_eq_add_one_of_ne_zero (Nat.ne_zero_of_lt enough)
  match items with
  | [] => exact absurd rfl someItem
  | item :: items =>
    rw [Value.ItemsWellFormed] at formed
    rw [Value.ItemsFloatFree] at whole
    rw [Value.itemsDepth, Nat.max_lt] at shallow
    rw [encode_itemsJson_cons, List.length_append] at enough
    rw [encode_itemsJson_cons, List.append_assoc]
    have itemRead : readValue fuel depth (Utf8.encode item.jsonChars ++
        (Utf8.encode (itemsTail items) ++ rest)) =
          .ok (item, Utf8.encode (itemsTail items) ++ rest) := by
      obtain ⟨b, bytes, tail, ends⟩ := encode_itemsTail_eq_cons items
      rw [tail, List.length_cons] at enough
      rw [tail]
      exact Value.readValue_jsonChars item formed.1 whole.1 shallow.1 (by omega)
        (stops_cons ends (bytes ++ rest))
    match items with
    | [] => exact readItems_last itemRead
    | next :: items =>
      have tail : Utf8.encode (itemsTail (next :: items)) =
          byte ',' :: Utf8.encode (itemsJson (next :: items)) := encode_cons (by decide) _
      rw [tail, List.length_cons] at enough
      have othersRead := readItems_itemsJson (next :: items) (List.cons_ne_nil _ _) formed.2 whole.2
        shallow.2 (show (Utf8.encode (itemsJson (next :: items))).length < fuel by omega) rest
      obtain ⟨b, bytes, starts, noSpace, noBracket⟩ :=
        encode_jsonChars_eq_cons next (itemsTail items)
      rw [← itemsJson_cons] at starts
      rw [starts, List.cons_append] at othersRead
      rw [tail, starts, List.cons_append, List.cons_append] at itemRead ⊢
      rw [readItems_more noSpace noBracket itemRead, othersRead]
      rfl

theorem readMembers_membersJson (members : List (String × Value)) (someMember : members ≠ [])
    (formed : Value.MembersWellFormed members) (whole : Value.MembersFloatFree members)
    {fuel depth : Nat} (shallow : Value.membersDepth members < depth)
    (enough : (Utf8.encode (membersJson members)).length < fuel) (before : List (String × Value))
    (distinct : ((before ++ members).map (·.1)).Nodup) (rest : List UInt8) :
    readMembers fuel depth before (Utf8.encode (membersJson members) ++ rest) =
      .ok (before ++ members, rest) := by
  obtain ⟨fuel, rfl⟩ := Nat.exists_eq_add_one_of_ne_zero (Nat.ne_zero_of_lt enough)
  match members with
  | [] => exact absurd rfl someMember
  | (name, value) :: members =>
    rw [Value.MembersWellFormed] at formed
    rw [Value.MembersFloatFree] at whole
    rw [Value.membersDepth, Nat.max_lt] at shallow
    rw [encode_membersJson_cons] at enough ⊢
    simp only [List.length_cons, List.length_append] at enough
    simp only [List.cons_append, List.append_assoc]
    have nameRead := readString_quote name.toList
      (show (Utf8.encode (name.toList.flatMap escape)).length < fuel by omega)
      (byte ':' :: (Utf8.encode value.jsonChars ++ (Utf8.encode (membersTail members) ++ rest)))
    rw [String.ofList_toList] at nameRead
    have valueRead : readValue fuel depth (Utf8.encode value.jsonChars ++
        (Utf8.encode (membersTail members) ++ rest)) =
          .ok (value, Utf8.encode (membersTail members) ++ rest) := by
      obtain ⟨b, bytes, tail, ends⟩ := encode_membersTail_eq_cons members
      rw [tail]
      exact Value.readValue_jsonChars value formed.1 whole.1 shallow.1 (by omega)
        (stops_cons ends (bytes ++ rest))
    have added := Value.insertMember_append (Value.fresh_of_nodup distinct) value
    match members with
    | [] =>
      rw [← added]
      exact readMembers_last nameRead valueRead
    | (nextName, next) :: members =>
      have tail : Utf8.encode (membersTail ((nextName, next) :: members)) =
          byte ',' :: Utf8.encode (membersJson ((nextName, next) :: members)) :=
        encode_cons (by decide) _
      rw [tail, List.length_cons] at enough
      have moved : before ++ (name, value) :: (nextName, next) :: members =
          before ++ [(name, value)] ++ (nextName, next) :: members := by simp
      have othersRead := readMembers_membersJson ((nextName, next) :: members)
        (List.cons_ne_nil _ _) formed.2 whole.2 shallow.2
        (show (Utf8.encode (membersJson ((nextName, next) :: members))).length < fuel by omega)
        (before ++ [(name, value)]) (moved ▸ distinct) rest
      rw [← moved, ← added] at othersRead
      rw [tail] at nameRead valueRead ⊢
      rw [encode_membersJson_cons] at nameRead valueRead othersRead ⊢
      exact (readMembers_more nameRead valueRead).trans othersRead

end

theorem Json.read_json {value : Value} (formed : value.WellFormed) (within : value.Within 127)
    (kind : Input) : Json.read kind (Utf8.encode value.json.toList) = .ok value := by
  have valueRead := value.readValue_jsonChars formed within.whole (Nat.lt_succ_of_le within.shallow)
    (show _ < 2 * (Utf8.encode value.jsonChars).length + 2 by omega) (stops_nil continuesNumber)
  rw [List.append_nil] at valueRead
  rw [Value.json, String.toList_ofList, Json.read, readDocument, valueRead]
  rfl

end Reconcile
