import Reconcile.Text.Utf8

namespace Reconcile.Text.Utf8

theorem char?_toNat {least : Nat} {c : Char} (long : least ≤ c.toNat) :
    char? least c.toNat = some c := by
  have valid : c.toNat.isValidChar := c.valid
  rw [char?, if_pos ⟨long, valid⟩, Char.ofNat_toNat]

theorem toNat_lt (c : Char) : c.toNat < 0x110000 := by
  have valid : c.toNat.isValidChar := c.valid
  rw [Nat.isValidChar] at valid
  omega

theorem toNat_ofNat {n : Nat} (small : n < 0x100) : (UInt8.ofNat n).toNat = n := by
  rw [UInt8.toNat_ofNat', Nat.mod_eq_of_lt small]

theorem encode_cons (c : Char) (text : List Char) :
    encode (c :: text) = encodeChar c ++ encode text := List.flatMap_cons

theorem encode_append (text more : List Char) :
    encode (text ++ more) = encode text ++ encode more := List.flatMap_append

theorem size_append (text more : List Char) : size (text ++ more) = size text + size more := by
  rw [size, encode_append, List.length_append, size, size]

theorem size_cons (c : Char) (text : List Char) : size (c :: text) = width c + size text := by
  rw [size, encode_cons, List.length_append, width, size]

theorem encodeChar_ascii {c : Char} (ascii : c.toNat < 0x80) : encodeChar c = [.ofNat c.toNat] := by
  simp only [encodeChar, if_pos ascii]

theorem width_ascii {c : Char} (ascii : c.toNat < 0x80) : width c = 1 := by
  rw [width, encodeChar_ascii ascii, List.length_singleton]

theorem le_of_mem_encodeChar {c : Char} (wide : 0x80 ≤ c.toNat) {b : UInt8}
    (member : b ∈ encodeChar c) : 0x80 ≤ b.toNat := by
  have most := toNat_lt c
  have high {n : Nat} (low : 0x80 ≤ n) (small : n < 0x100) : 0x80 ≤ (UInt8.ofNat n).toNat := by
    rwa [toNat_ofNat small]
  simp only [encodeChar, if_neg (Nat.not_lt_of_le wide)] at member
  split at member
  · simp only [List.mem_cons, List.not_mem_nil, or_false] at member
    rcases member with rfl | rfl <;> exact high (by omega) (by omega)
  split at member
  · simp only [List.mem_cons, List.not_mem_nil, or_false] at member
    rcases member with rfl | rfl | rfl <;> exact high (by omega) (by omega)
  · simp only [List.mem_cons, List.not_mem_nil, or_false] at member
    rcases member with rfl | rfl | rfl | rfl <;> exact high (by omega) (by omega)

theorem toNat_of_mem_encodeChar {c : Char} {b : UInt8} (ascii : b.toNat < 0x80)
    (member : b ∈ encodeChar c) : c.toNat = b.toNat := by
  by_cases wide : 0x80 ≤ c.toNat
  · have high := le_of_mem_encodeChar wide member
    omega
  · rw [encodeChar_ascii (by omega), List.mem_singleton] at member
    rw [member, toNat_ofNat (by omega)]

theorem continuation?_ofNat {n : Nat} (small : n < 0x40) :
    continuation? (.ofNat (0x80 + n)) = some n := by
  have value := toNat_ofNat (show 0x80 + n < 0x100 by omega)
  have inRange : 0x80 ≤ UInt8.ofNat (0x80 + n) ∧ UInt8.ofNat (0x80 + n) < 0xC0 := by
    simp only [UInt8.le_iff_toNat_le, UInt8.lt_iff_toNat_lt, value, UInt8.reduceToNat]
    omega
  rw [continuation?, if_pos inRange, value, Nat.add_sub_cancel_left]

theorem announced_ofNat {n : Nat} (small : n < 0x100) :
    announced (.ofNat n) =
      if n < 0x80 then 1 else if n < 0xC0 then 0 else if n < 0xE0 then 2
      else if n < 0xF0 then 3 else if n < 0xF8 then 4 else 0 := by
  simp only [announced, UInt8.lt_iff_toNat_lt, toNat_ofNat small, UInt8.reduceToNat]

theorem decodeFrom_encodeChar (start : Nat) (c : Char) (rest : List UInt8) :
    decodeFrom start (encodeChar c ++ rest) =
      (decodeFrom (start + width c) rest).map (c :: ·) := by
  have most := toNat_lt c
  -- The digits of a code in base 64, but for the one that the first byte holds.
  have last := continuation?_ofNat (Nat.mod_lt c.toNat (show 0 < 0x40 by decide))
  have second := continuation?_ofNat (Nat.mod_lt (c.toNat / 0x40) (show 0 < 0x40 by decide))
  have third := continuation?_ofNat (Nat.mod_lt (c.toNat / 0x1000) (show 0 < 0x40 by decide))
  by_cases one : c.toNat < 0x80
  · have bytes := encodeChar_ascii one
    have first : announced (.ofNat c.toNat) = 1 := by
      rw [announced_ofNat (by omega), if_pos one]
    have whole : char? 0 (UInt8.ofNat c.toNat).toNat = some c := by
      rw [toNat_ofNat (by omega)]
      exact char?_toNat (by omega)
    simp only [width, bytes, List.cons_append, List.nil_append, decodeFrom, first, whole]
    rfl
  by_cases two : c.toNat < 0x800
  · have bytes : encodeChar c =
        [.ofNat (0xC0 + c.toNat / 0x40), .ofNat (0x80 + c.toNat % 0x40)] := by
      simp only [encodeChar, if_neg one, if_pos two]
    have first : announced (.ofNat (0xC0 + c.toNat / 0x40)) = 2 := by
      rw [announced_ofNat (by omega), if_neg (by omega), if_neg (by omega), if_pos (by omega)]
    have value := toNat_ofNat (show 0xC0 + c.toNat / 0x40 < 0x100 by omega)
    have sum : (0xC0 + c.toNat / 0x40 - 0xC0) * 0x40 + c.toNat % 0x40 = c.toNat := by omega
    have whole : pair? (.ofNat (0xC0 + c.toNat / 0x40)) (.ofNat (0x80 + c.toNat % 0x40)) =
        some c := by
      refine Option.bind_eq_some_iff.mpr ⟨_, last, ?_⟩
      rw [value, sum]
      exact char?_toNat (by omega)
    simp only [width, bytes, List.cons_append, List.nil_append, decodeFrom, first, whole]
    rfl
  by_cases three : c.toNat < 0x10000
  · have bytes : encodeChar c =
        [.ofNat (0xE0 + c.toNat / 0x1000), .ofNat (0x80 + c.toNat / 0x40 % 0x40),
          .ofNat (0x80 + c.toNat % 0x40)] := by
      simp only [encodeChar, if_neg one, if_neg two, if_pos three]
    have first : announced (.ofNat (0xE0 + c.toNat / 0x1000)) = 3 := by
      rw [announced_ofNat (by omega), if_neg (by omega), if_neg (by omega), if_neg (by omega),
        if_pos (by omega)]
    have value := toNat_ofNat (show 0xE0 + c.toNat / 0x1000 < 0x100 by omega)
    have sum : (0xE0 + c.toNat / 0x1000 - 0xE0) * 0x1000 + c.toNat / 0x40 % 0x40 * 0x40 +
        c.toNat % 0x40 = c.toNat := by omega
    have whole : triple? (.ofNat (0xE0 + c.toNat / 0x1000))
        (.ofNat (0x80 + c.toNat / 0x40 % 0x40)) (.ofNat (0x80 + c.toNat % 0x40)) = some c := by
      refine Option.bind_eq_some_iff.mpr ⟨_, second, ?_⟩
      refine Option.bind_eq_some_iff.mpr ⟨_, last, ?_⟩
      rw [value, sum]
      exact char?_toNat (by omega)
    simp only [width, bytes, List.cons_append, List.nil_append, decodeFrom, first, whole]
    rfl
  · have bytes : encodeChar c =
        [.ofNat (0xF0 + c.toNat / 0x40000), .ofNat (0x80 + c.toNat / 0x1000 % 0x40),
          .ofNat (0x80 + c.toNat / 0x40 % 0x40), .ofNat (0x80 + c.toNat % 0x40)] := by
      simp only [encodeChar, if_neg one, if_neg two, if_neg three]
    have first : announced (.ofNat (0xF0 + c.toNat / 0x40000)) = 4 := by
      rw [announced_ofNat (by omega), if_neg (by omega), if_neg (by omega), if_neg (by omega),
        if_neg (by omega), if_pos (by omega)]
    have value := toNat_ofNat (show 0xF0 + c.toNat / 0x40000 < 0x100 by omega)
    have sum : (0xF0 + c.toNat / 0x40000 - 0xF0) * 0x40000 + c.toNat / 0x1000 % 0x40 * 0x1000 +
        c.toNat / 0x40 % 0x40 * 0x40 + c.toNat % 0x40 = c.toNat := by omega
    have whole : quadruple? (.ofNat (0xF0 + c.toNat / 0x40000))
        (.ofNat (0x80 + c.toNat / 0x1000 % 0x40)) (.ofNat (0x80 + c.toNat / 0x40 % 0x40))
        (.ofNat (0x80 + c.toNat % 0x40)) = some c := by
      refine Option.bind_eq_some_iff.mpr ⟨_, third, ?_⟩
      refine Option.bind_eq_some_iff.mpr ⟨_, second, ?_⟩
      refine Option.bind_eq_some_iff.mpr ⟨_, last, ?_⟩
      rw [value, sum]
      exact char?_toNat (by omega)
    simp only [width, bytes, List.cons_append, List.nil_append, decodeFrom, first, whole]
    rfl

theorem decodeFrom_encode_append (start : Nat) (text : List Char) (rest : List UInt8) :
    decodeFrom start (encode text ++ rest) =
      (decodeFrom (start + size text) rest).map (text ++ ·) := by
  induction text generalizing start with
  | nil =>
    have none : size [] = 0 := rfl
    cases decoded : decodeFrom start rest <;> simp [encode, none, decoded, Except.map]
  | cons c text ih =>
    rw [encode_cons, List.append_assoc, decodeFrom_encodeChar, ih, size_cons, Nat.add_assoc]
    cases decodeFrom (start + (width c + size text)) rest <;> rfl

theorem decodeFrom_encode (start : Nat) (text : List Char) :
    decodeFrom start (encode text) = .ok text := by
  have whole := decodeFrom_encode_append start text []
  rwa [List.append_nil, decodeFrom, Except.map, List.append_nil] at whole

theorem decode_encode (text : List Char) : decode (encode text) = .ok text :=
  decodeFrom_encode 0 text

theorem encode_injective {text other : List Char} (same : encode text = encode other) :
    text = other := by
  have decoded := decode_encode text
  rw [same, decode_encode, Except.ok.injEq] at decoded
  exact decoded.symm

theorem continuation?_eq_none {n : Nat} (small : n < 0x100) (outside : n < 0x80 ∨ 0xC0 ≤ n) :
    continuation? (.ofNat n) = none := by
  apply if_neg
  simp only [UInt8.le_iff_toNat_le, UInt8.lt_iff_toNat_lt, toNat_ofNat small, UInt8.reduceToNat]
  omega

theorem encodeChar_eq_cons (c : Char) :
    ∃ first others, encodeChar c = first :: others ∧ continuation? first = none ∧
      ∀ b ∈ others, (continuation? b).isSome = true := by
  have most := toNat_lt c
  have digit (n : Nat) : (continuation? (.ofNat (0x80 + n % 0x40))).isSome = true := by
    rw [continuation?_ofNat (Nat.mod_lt n (by decide)), Option.isSome_some]
  by_cases one : c.toNat < 0x80
  · exact ⟨_, _, encodeChar_ascii one, continuation?_eq_none (by omega) (.inl one), by simp⟩
  by_cases two : c.toNat < 0x800
  · simp only [encodeChar, if_neg one, if_pos two]
    refine ⟨_, _, rfl, continuation?_eq_none (by omega) (by omega), ?_⟩
    simp only [List.forall_mem_cons, List.not_mem_nil, false_implies, implies_true, digit, and_self]
  by_cases three : c.toNat < 0x10000
  · simp only [encodeChar, if_neg one, if_neg two, if_pos three]
    refine ⟨_, _, rfl, continuation?_eq_none (by omega) (by omega), ?_⟩
    simp only [List.forall_mem_cons, List.not_mem_nil, false_implies, implies_true, digit, and_self]
  · simp only [encodeChar, if_neg one, if_neg two, if_neg three]
    refine ⟨_, _, rfl, continuation?_eq_none (by omega) (by omega), ?_⟩
    simp only [List.forall_mem_cons, List.not_mem_nil, false_implies, implies_true, digit, and_self]

theorem width_pos (c : Char) : 0 < width c := by
  obtain ⟨first, others, written, -⟩ := encodeChar_eq_cons c
  rw [width, written]
  exact Nat.succ_pos _

theorem starts_of_encode {text pattern : List Char} {later : List UInt8}
    (found : encode text = encode pattern ++ later) :
    ∃ after, text = pattern ++ after := by
  have decoded := decode_encode text
  rw [found, decode, decodeFrom_encode_append] at decoded
  cases rest : decodeFrom (0 + size pattern) later with
  | error position =>
    rw [rest] at decoded
    cases decoded
  | ok after =>
    rw [rest] at decoded
    exact ⟨after, (Except.ok.inj decoded).symm⟩

/-- A text is found among the bytes of another only where it stands among its characters. -/
theorem split_of_encode {text pattern : List Char} (some : pattern ≠ [])
    {earlier later : List UInt8} (found : encode text = earlier ++ (encode pattern ++ later)) :
    ∃ before after, text = before ++ (pattern ++ after) ∧ earlier = encode before := by
  obtain ⟨p, others, rfl⟩ := List.exists_cons_of_ne_nil some
  obtain ⟨lead, tail, written, leads, -⟩ := encodeChar_eq_cons p
  induction text generalizing earlier with
  | nil => simp [encode, written] at found
  | cons c text ih =>
    cases earlier with
    | nil =>
      obtain ⟨after, split⟩ := starts_of_encode found
      exact ⟨[], after, split, rfl⟩
    | cons b earlier =>
      -- The occurrence begins behind the first character, as it cannot begin inside of it.
      have behind : ∃ between, b :: earlier = encodeChar c ++ between ∧
          encode text = between ++ (encode (p :: others) ++ later) := by
        rw [encode_cons] at found
        rcases List.append_eq_append_iff.mp found with
          ⟨between, split, rest⟩ | ⟨inside, split, rest⟩
        · exact ⟨between, split, rest⟩
        cases inside with
        | nil => exact ⟨[], by simpa using split.symm, rest.symm⟩
        | cons d inside =>
          obtain ⟨first, digits, bytes, -, continued⟩ := encodeChar_eq_cons c
          rw [bytes, List.cons_append, List.cons.injEq] at split
          have digit := continued d (split.2 ▸ List.mem_append_cons_self)
          rw [encode_cons, written, List.append_assoc, List.cons_append, List.cons_append,
            List.cons.injEq] at rest
          rw [← rest.1, leads] at digit
          cases digit
      obtain ⟨between, split, rest⟩ := behind
      obtain ⟨before, after, rfl, rfl⟩ := ih rest
      exact ⟨c :: before, after, rfl, by rw [split, encode_cons]⟩

end Reconcile.Text.Utf8
