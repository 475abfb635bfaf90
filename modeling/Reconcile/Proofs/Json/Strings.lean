import Reconcile.Document.Json.Printer
import Reconcile.Document.Json.Reader
import Reconcile.Proofs.Text.Utf8

namespace Reconcile.Json

open Text

theorem encode_cons {c : Char} (ascii : c.toNat < 0x80) (text : List Char) :
    Utf8.encode (c :: text) = byte c :: Utf8.encode text := by
  rw [Utf8.encode_cons, Utf8.encodeChar_ascii ascii]
  rfl

def IsPlain (b : UInt8) : Prop := b ≠ byte '"' ∧ b ≠ byte '\\' ∧ ¬b < 0x20

theorem isPlain_of_mem_encodeChar {c : Char} (noQuote : c ≠ '"') (noBackslash : c ≠ '\\')
    (noControl : ¬c.toNat < 0x20) {b : UInt8} (member : b ∈ Utf8.encodeChar c) : IsPlain b := by
  have plain (value : b.toNat ≠ 0x22 ∧ b.toNat ≠ 0x5C ∧ 0x20 ≤ b.toNat) : IsPlain b := by
    refine ⟨fun same => value.1 (congrArg UInt8.toNat same),
      fun same => value.2.1 (congrArg UInt8.toNat same), fun below => ?_⟩
    have small := UInt8.lt_iff_toNat_lt.mp below
    exact absurd value.2.2 (Nat.not_le_of_lt small)
  by_cases ascii : c.toNat < 0x80
  · rw [Utf8.encodeChar_ascii ascii, List.mem_singleton] at member
    have value : b.toNat = c.toNat := by rw [member, Utf8.toNat_ofNat (by omega)]
    refine plain ⟨fun same => noQuote ?_, fun same => noBackslash ?_, by omega⟩
    · exact Char.toNat_inj.mp (value.symm.trans same)
    · exact Char.toNat_inj.mp (value.symm.trans same)
  · have high := Utf8.le_of_mem_encodeChar (Nat.le_of_not_lt ascii) member
    exact plain (by omega)

theorem hexValue?_hexDigit {n : Nat} (small : n < 16) : hexValue? (byte (hexDigit n)) = some n := by
  have all : ∀ n < 16, hexValue? (byte (hexDigit n)) = some n := by decide
  exact all n small

theorem hexDigit_ascii {n : Nat} (small : n < 16) : (hexDigit n).toNat < 0x80 := by
  have all : ∀ n < 16, (hexDigit n).toNat < 0x80 := by decide
  exact all n small

theorem readCodePoint_control {c : Char} (control : c.toNat < 0x20) (rest : List UInt8) :
    readCodePoint (byte '0' :: byte '0' :: byte (hexDigit (c.toNat / 16)) ::
      byte (hexDigit (c.toNat % 16)) :: rest) = .ok (c, rest) := by
  have zero : hexValue? (byte '0') = some 0 := by decide
  have high := hexValue?_hexDigit (show c.toNat / 16 < 16 by omega)
  have low := hexValue?_hexDigit (show c.toNat % 16 < 16 by omega)
  have value : ((0 * 16 + 0) * 16 + c.toNat / 16) * 16 + c.toNat % 16 = c.toNat := by omega
  have read : readHex (byte '0' :: byte '0' :: byte (hexDigit (c.toNat / 16)) ::
      byte (hexDigit (c.toNat % 16)) :: rest) = .ok (c.toNat, rest) := by
    simp only [readHex, zero, high, low, value]
  rw [readCodePoint, read]
  simp only [Bind.bind, Except.bind]
  rw [if_neg (by omega), if_pos (by omega), Char.ofNat_toNat]
  rfl

def shortEscapes : List (Char × Char) :=
  [('"', '"'), ('\\', '\\'), ('\x08', 'b'), ('\x0c', 'f'), ('\n', 'n'), ('\r', 'r'), ('\t', 't')]

theorem escape_eq (c : Char) :
    (∃ letter, (c, letter) ∈ shortEscapes ∧ escape c = ['\\', letter]) ∨
    (c.toNat < 0x20 ∧ escape c =
      ['\\', 'u', '0', '0', hexDigit (c.toNat / 16), hexDigit (c.toNat % 16)]) ∨
    (¬c.toNat < 0x20 ∧ c ≠ '"' ∧ c ≠ '\\' ∧ escape c = [c]) := by
  by_cases short : ∃ letter, (c, letter) ∈ shortEscapes
  · obtain ⟨letter, listed⟩ := short
    refine .inl ⟨letter, listed, ?_⟩
    simp only [shortEscapes, List.mem_cons, List.not_mem_nil, or_false, Prod.mk.injEq] at listed
    rcases listed with ⟨rfl, rfl⟩ | ⟨rfl, rfl⟩ | ⟨rfl, rfl⟩ | ⟨rfl, rfl⟩ | ⟨rfl, rfl⟩ |
      ⟨rfl, rfl⟩ | ⟨rfl, rfl⟩ <;> rfl
  · simp only [shortEscapes, List.mem_cons, List.not_mem_nil, or_false, Prod.mk.injEq, exists_or,
      exists_eq_right, not_or] at short
    obtain ⟨quote, backslash, backspace, feed, newline, carriage, tab⟩ := short
    right
    rw [escape, if_neg quote, if_neg backslash, if_neg backspace, if_neg feed, if_neg newline,
      if_neg carriage, if_neg tab]
    split
    · rename_i control
      exact .inl ⟨control, rfl⟩
    · rename_i noControl
      exact .inr ⟨noControl, quote, backslash, rfl⟩

theorem hexDigit_plain {n : Nat} (small : n < 16) :
    hexDigit n ≠ '\\' ∧ hexDigit n ≠ '"' ∧ 0x20 ≤ (hexDigit n).toNat := by
  have all : ∀ n < 16, hexDigit n ≠ '\\' ∧ hexDigit n ≠ '"' ∧ 0x20 ≤ (hexDigit n).toNat := by decide
  exact all n small

/-- A character stands for itself, is escaped by a backslash before it, or is a control character
and has an escape of letters and digits. -/
theorem escape_cases (c : Char) :
    (0x20 ≤ c.toNat ∧ c ≠ '\\' ∧ c ≠ '"' ∧ escape c = [c]) ∨
      (0x20 ≤ c.toNat ∧ escape c = ['\\', c]) ∨
      (c.toNat < 0x20 ∧ ∃ letter rest, escape c = '\\' :: letter :: rest ∧ 0x20 ≤ letter.toNat ∧
        ∀ d ∈ rest, d ≠ '\\' ∧ d ≠ '"' ∧ 0x20 ≤ d.toNat) := by
  rcases escape_eq c with ⟨letter, listed, escaped⟩ | ⟨control, escaped⟩ |
    ⟨noControl, noQuote, noBackslash, itself⟩
  · rw [escaped]
    simp only [shortEscapes, List.mem_cons, List.not_mem_nil, or_false, Prod.mk.injEq] at listed
    rcases listed with ⟨rfl, rfl⟩ | ⟨rfl, rfl⟩ | control
    · exact .inr (.inl ⟨by decide, rfl⟩)
    · exact .inr (.inl ⟨by decide, rfl⟩)
    · refine .inr (.inr ?_)
      rcases control with ⟨rfl, rfl⟩ | ⟨rfl, rfl⟩ | ⟨rfl, rfl⟩ | ⟨rfl, rfl⟩ | ⟨rfl, rfl⟩ <;>
        exact ⟨by decide, _, [], rfl, by decide, by simp⟩
  · have high := hexDigit_plain (show c.toNat / 16 < 16 by omega)
    have low := hexDigit_plain (show c.toNat % 16 < 16 by omega)
    refine .inr (.inr ⟨control, 'u', ['0', '0', hexDigit (c.toNat / 16), hexDigit (c.toNat % 16)],
      escaped, by decide, ?_⟩)
    simp [high, low]
  · exact .inl ⟨Nat.le_of_not_lt noControl, noBackslash, noQuote, itself⟩

theorem escape_readEscape (c : Char) :
    (escape c = [c] ∧ ∀ b ∈ Utf8.encodeChar c, IsPlain b) ∨
      ∃ bytes, Utf8.encode (escape c) = byte '\\' :: bytes ∧
        ∀ rest, readEscape (bytes ++ rest) = .ok (c, rest) := by
  rcases escape_eq c with ⟨letter, listed, escaped⟩ | ⟨control, escaped⟩ |
    ⟨noControl, noQuote, noBackslash, itself⟩
  · refine .inr ⟨[byte letter], ?_, ?_⟩ <;>
      simp only [shortEscapes, List.mem_cons, List.not_mem_nil, or_false, Prod.mk.injEq] at listed
    · rw [escaped]
      rcases listed with ⟨-, rfl⟩ | ⟨-, rfl⟩ | ⟨-, rfl⟩ | ⟨-, rfl⟩ | ⟨-, rfl⟩ | ⟨-, rfl⟩ |
        ⟨-, rfl⟩ <;> rfl
    · intro rest
      rcases listed with ⟨rfl, rfl⟩ | ⟨rfl, rfl⟩ | ⟨rfl, rfl⟩ | ⟨rfl, rfl⟩ | ⟨rfl, rfl⟩ |
        ⟨rfl, rfl⟩ | ⟨rfl, rfl⟩ <;> rfl
  · have high := hexDigit_ascii (show c.toNat / 16 < 16 by omega)
    have low := hexDigit_ascii (show c.toNat % 16 < 16 by omega)
    have letters : '\\'.toNat < 0x80 ∧ 'u'.toNat < 0x80 ∧ '0'.toNat < 0x80 := by decide
    refine .inr ⟨[byte 'u', byte '0', byte '0', byte (hexDigit (c.toNat / 16)),
      byte (hexDigit (c.toNat % 16))], ?_, fun rest => readCodePoint_control control rest⟩
    rw [escaped, encode_cons letters.1, encode_cons letters.2.1, encode_cons letters.2.2,
      encode_cons letters.2.2, encode_cons high, encode_cons low]
    rfl
  · exact .inl ⟨itself, fun b => isPlain_of_mem_encodeChar noQuote noBackslash noControl⟩

theorem readString_plain {bytes : List UInt8} (plain : ∀ b ∈ bytes, IsPlain b) (fuel : Nat)
    (collected rest : List UInt8) :
    readString (fuel + bytes.length) collected (bytes ++ rest) =
      readString fuel (bytes.reverse ++ collected) rest := by
  induction bytes generalizing collected with
  | nil => rfl
  | cons b bytes ih =>
    obtain ⟨⟨noQuote, noBackslash, noControl⟩, others⟩ := List.forall_mem_cons.mp plain
    rw [List.length_cons, ← Nat.add_assoc, List.cons_append, readString, if_neg noQuote,
      if_neg noBackslash, if_neg noControl, ih others, List.reverse_cons, List.append_assoc,
      List.singleton_append]

theorem readString_escape {fuel : Nat} (text : List Char)
    (enough : (Utf8.encode (text.flatMap escape)).length < fuel) (collected rest : List UInt8) :
    readString fuel collected (Utf8.encode (text.flatMap escape) ++ byte '"' :: rest) =
      finishString ((Utf8.encode text).reverse ++ collected) rest := by
  induction text generalizing fuel collected with
  | nil =>
    cases fuel with
    | zero => cases enough
    | succ fuel => rfl
  | cons c text ih =>
    rw [List.flatMap_cons, Utf8.encode_append] at enough ⊢
    rw [List.length_append] at enough
    have reversed : (Utf8.encode (c :: text)).reverse ++ collected =
        (Utf8.encode text).reverse ++ ((Utf8.encodeChar c).reverse ++ collected) := by
      rw [Utf8.encode_cons, List.reverse_append, List.append_assoc]
    rw [reversed]
    rcases escape_readEscape c with ⟨itself, plain⟩ | ⟨bytes, escaped, readBack⟩
    · have single : Utf8.encode (escape c) = Utf8.encodeChar c := by
        rw [itself, Utf8.encode_cons]
        exact List.append_nil _
      rw [single] at enough ⊢
      obtain ⟨left, rfl⟩ :=
        Nat.exists_eq_add_of_le' (show (Utf8.encodeChar c).length ≤ fuel by omega)
      rw [List.append_assoc, readString_plain plain, ih (by omega)]
    · rw [escaped] at enough ⊢
      cases fuel with
      | zero => cases enough
      | succ fuel =>
        rw [List.length_cons] at enough
        have isBackslash : byte '\\' ≠ byte '"' := by decide
        simp only [List.cons_append, List.append_assoc, readString, if_neg isBackslash, if_true,
          readBack, Bind.bind, Except.bind]
        exact ih (by omega) _

theorem readString_quote {fuel : Nat} (text : List Char)
    (enough : (Utf8.encode (text.flatMap escape)).length < fuel) (rest : List UInt8) :
    readString fuel [] (Utf8.encode (text.flatMap escape) ++ byte '"' :: rest) =
      .ok (.ofList text, rest) := by
  rw [readString_escape text enough, finishString, List.append_nil, List.reverse_reverse,
    Utf8.decode_encode]

theorem encode_quote (text : List Char) :
    Utf8.encode (quote text) =
      byte '"' :: (Utf8.encode (text.flatMap escape) ++ [byte '"']) := by
  rw [quote, List.cons_append, encode_cons (by decide), Utf8.encode_append]
  rfl

theorem quote_append_inj {text other rest otherRest : List Char}
    (same : quote text ++ rest = quote other ++ otherRest) : text = other ∧ rest = otherRest := by
  have bytes := congrArg Utf8.encode same
  simp only [Utf8.encode_append, encode_quote, List.cons_append, List.append_assoc,
    List.nil_append, List.cons.injEq, true_and] at bytes
  -- With calls enough for both, the reader finds both texts.
  have first := readString_quote text (Nat.lt_succ_of_le (Nat.le_add_right _
    (Utf8.encode (other.flatMap escape)).length)) (Utf8.encode rest)
  have second := readString_quote other (Nat.lt_succ_of_le (Nat.le_add_left _
    (Utf8.encode (text.flatMap escape)).length)) (Utf8.encode otherRest)
  rw [bytes, second, Except.ok.injEq, Prod.mk.injEq, String.ofList_inj] at first
  exact ⟨first.1.symm, Utf8.encode_injective first.2.symm⟩

end Reconcile.Json
