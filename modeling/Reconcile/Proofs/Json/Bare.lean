import Reconcile.Proofs.Fallible
import Reconcile.Proofs.Text.Pieces
import Reconcile.Query.Parser

namespace Reconcile

namespace Json

open Text

def isBareByte (b : UInt8) : Bool := isSpace b || isDigit b || (word "+-.eEnultrafs").contains b

theorem isBareByte_of_isSpace {b : UInt8} (space : isSpace b = true) : isBareByte b = true := by
  simp [isBareByte, space]

theorem isBareByte_of_isDigit {b : UInt8} (digit : isDigit b = true) : isBareByte b = true := by
  simp [isBareByte, digit]

theorem isBareByte_of_eq {b : UInt8} {c : Char} (same : b = byte c)
    (bare : isBareByte (byte c) = true) : isBareByte b = true := by
  rw [same]
  exact bare

/-- A reader that goes from one place to another over bare bytes only. -/
def OverBare (input rest : List UInt8) : Prop :=
  ∃ taken, input = taken ++ rest ∧ ∀ b ∈ taken, isBareByte b = true

namespace OverBare

theorem refl (input : List UInt8) : OverBare input input := ⟨[], rfl, by simp⟩

theorem trans {input middle rest : List UInt8} (first : OverBare input middle)
    (second : OverBare middle rest) : OverBare input rest := by
  obtain ⟨before, rfl, firstBare⟩ := first
  obtain ⟨after, rfl, secondBare⟩ := second
  refine ⟨before ++ after, (List.append_assoc ..).symm, fun b member => ?_⟩
  rcases List.mem_append.mp member with member | member
  · exact firstBare b member
  · exact secondBare b member

theorem cons {b : UInt8} (bare : isBareByte b = true) {input rest : List UInt8}
    (passed : OverBare input rest) : OverBare (b :: input) rest := by
  obtain ⟨taken, rfl, allBare⟩ := passed
  exact ⟨b :: taken, rfl, List.forall_mem_cons.mpr ⟨bare, allBare⟩⟩

theorem dropWhile {kind : UInt8 → Bool} (bare : ∀ b, kind b = true → isBareByte b = true)
    (input : List UInt8) : OverBare input (input.dropWhile kind) :=
  ⟨input.takeWhile kind, List.takeWhile_append_dropWhile.symm, fun b member =>
    bare b (List.mem_takeWhile_imp member)⟩

theorem digits (input : List UInt8) : OverBare input (input.dropWhile isDigit) :=
  dropWhile (fun _ => isBareByte_of_isDigit) input

theorem spaces (input : List UInt8) : OverBare input (skipSpace input) :=
  dropWhile (fun _ => isBareByte_of_isSpace) input

end OverBare

section

variable {negative : Bool} {significand : Nat} {exponent : Int} {input rest : List UInt8}
  {n : Number}

theorem overBare_of_finishFloat
    (found : finishFloat negative significand exponent input = .ok (n, rest)) :
    OverBare input rest := by
  cases scaled : scale negative significand exponent with
  | none => simp [finishFloat, scaled] at found
  | some x =>
    simp only [finishFloat, scaled, Option.elim_some, Except.ok.injEq, Prod.mk.injEq] at found
    rw [← found.2]
    exact .refl input

theorem overBare_of_exponentDigits (start : Nat) (input : List UInt8) :
    OverBare input (exponentDigits start input).2 ∧
      ∀ left, (exponentDigits start input).1 = .error left → OverBare input left := by
  induction input generalizing start with
  | nil => exact ⟨.refl [], by simp [exponentDigits]⟩
  | cons b input ih =>
    unfold exponentDigits
    split
    · rename_i digit
      have bare := isBareByte_of_isDigit digit
      dsimp only
      split
      · obtain ⟨read, tooLarge⟩ := ih (start * 10 + digitValue b)
        exact ⟨.cons bare read, fun left found => .cons bare (tooLarge left found)⟩
      · refine ⟨.cons bare (.refl input), ?_⟩
        rintro left ⟨⟩
        exact .cons bare (.refl input)
    · exact ⟨.refl _, by simp⟩

theorem overBare_of_readExponent
    (found : readExponent negative significand exponent input = .ok (n, rest)) :
    OverBare input rest := by
  unfold readExponent at found
  split at found
  rename_i down unsigned signed
  have passed : OverBare input unsigned := by
    split at signed
    · split at signed
      · rename_i plus
        cases signed
        exact .cons (isBareByte_of_eq plus (by decide)) (.refl unsigned)
      split at signed
      · rename_i minus
        cases signed
        exact .cons (isBareByte_of_eq minus (by decide)) (.refl unsigned)
      · cases signed
        exact .refl _
    · cases signed
      exact .refl []
  refine passed.trans ?_
  cases unsigned with
  | nil => cases found
  | cons b after =>
    dsimp only at found
    split at found
    · rename_i digit
      obtain ⟨read, tooLarge⟩ := overBare_of_exponentDigits (digitValue b) after
      refine .cons (isBareByte_of_isDigit digit) ?_
      split at found
      · rename_i exponentRead
        rw [exponentRead] at read
        exact read.trans (overBare_of_finishFloat found)
      · rename_i left _ exponentRead
        rw [exponentRead] at tooLarge
        have zero {outOfRange : Prop} [Decidable outOfRange]
            (ended : (if outOfRange then failBefore .numberOutOfRange left
              else .ok (.float (.zero negative), left.dropWhile isDigit)) = .ok (n, rest)) :
            OverBare after rest := by
          split at ended <;> cases ended
          exact (tooLarge left rfl).trans (.digits left)
        exact zero found
    · cases found

theorem overBare_of_readFloatEnd
    (found : readFloatEnd negative significand exponent input = .ok (n, rest)) :
    OverBare input rest := by
  unfold readFloatEnd at found
  split at found
  · split at found
    · rename_i mark
      refine .cons ?_ (overBare_of_readExponent found)
      rcases mark with small | large
      · exact isBareByte_of_eq small (by decide)
      · exact isBareByte_of_eq large (by decide)
    · exact overBare_of_finishFloat found
  · exact overBare_of_finishFloat found

theorem overBare_of_readFraction
    (found : readFraction negative significand exponent input = .ok (n, rest)) :
    OverBare input rest := by
  simp only [readFraction, List.span_eq_takeWhile_dropWhile] at found
  split at found
  · split at found <;> cases found
  · exact (OverBare.digits input).trans (overBare_of_readFloatEnd found)

theorem overBare_of_finishInt
    (found : finishInt negative significand input = .ok (n, rest)) : OverBare input rest := by
  unfold finishInt at found
  split at found
  · cases found
    exact .refl input
  · split at found
    · exact overBare_of_finishFloat found
    · cases found
      exact .refl input

theorem overBare_of_readNumberEnd {dropped : Nat}
    (found : readNumberEnd negative significand dropped input = .ok (n, rest)) :
    OverBare input rest := by
  unfold readNumberEnd at found
  split at found
  · split at found
    · rename_i point
      exact .cons (isBareByte_of_eq point (by decide)) (overBare_of_readFraction found)
    · split at found
      · rename_i mark
        refine .cons ?_ (overBare_of_readExponent found)
        rcases mark with small | large
        · exact isBareByte_of_eq small (by decide)
        · exact isBareByte_of_eq large (by decide)
      · split at found
        · exact overBare_of_finishInt found
        · exact overBare_of_finishFloat found
  · split at found
    · exact overBare_of_finishInt found
    · exact overBare_of_finishFloat found

theorem overBare_of_readNumber (found : readNumber negative input = .ok (n, rest)) :
    OverBare input rest := by
  unfold readNumber at found
  split at found
  · cases found
  · rename_i b after
    split at found
    · rename_i zero
      split at found
      · cases found
      · have digit : isDigit b = true := by rw [zero]; decide
        exact .cons (isBareByte_of_isDigit digit) (overBare_of_readNumberEnd found)
    · split at found
      · simp only [List.span_eq_takeWhile_dropWhile] at found
        exact (OverBare.digits (b :: after)).trans (overBare_of_readNumberEnd found)
      · cases found

end

theorem overBare_of_readWord {letters : List UInt8} {input rest : List UInt8}
    (bare : ∀ b ∈ letters, isBareByte b = true) (found : readWord letters input = .ok rest) :
    OverBare input rest := by
  induction letters generalizing input with
  | nil =>
    cases found
    exact .refl _
  | cons expected letters ih =>
    obtain ⟨first, others⟩ := List.forall_mem_cons.mp bare
    cases input with
    | nil => cases found
    | cons b input =>
      rw [readWord] at found
      split at found
      · rename_i same
        exact .cons (same ▸ first) (ih others found)
      · cases found

def IsBare : Value → Prop
  | .null => True
  | .bool _ => True
  | .number _ => True
  | _ => False

theorem overBare_of_readValue {fuel depth : Nat} {input rest : List UInt8} {value : Value}
    (bare : IsBare value) (found : readValue fuel depth input = .ok (value, rest)) :
    OverBare input rest := by
  cases fuel with
  | zero => cases found
  | succ fuel =>
    rw [readValue] at found
    refine (OverBare.spaces input).trans ?_
    split at found
    · cases found
    · rename_i b after same
      rw [same]
      have constant {letters : List UInt8} {v : Value} (first : isBareByte b = true)
          (others : ∀ d ∈ letters, isBareByte d = true)
          (read : (readWord letters after).map (v, ·) = .ok (value, rest)) :
          OverBare (b :: after) rest := by
        obtain ⟨left, wordRead, same⟩ := (Fallible.map_eq_ok_iff _ _ _).mp read
        cases same
        exact .cons first (overBare_of_readWord others wordRead)
      have number {negative : Bool} {digits : List UInt8} (sign : OverBare (b :: after) digits)
          (read : ((readNumber negative digits).map fun pair => (Value.number pair.1, pair.2)) =
            .ok (value, rest)) : OverBare (b :: after) rest := by
        obtain ⟨pair, numberRead, same⟩ := (Fallible.map_eq_ok_iff _ _ _).mp read
        cases same
        exact sign.trans (overBare_of_readNumber numberRead)
      have other {α : Type} {result : Except Fault α} {make : α → Value × List UInt8}
          (never : ∀ a, ¬IsBare (make a).1) (read : result.map make = .ok (value, rest)) :
          OverBare (b :: after) rest := by
        obtain ⟨a, -, same⟩ := (Fallible.map_eq_ok_iff _ _ _).mp read
        have notBare := never a
        rw [same] at notBare
        exact absurd bare notBare
      by_cases null : b = byte 'n'
      · rw [if_pos null] at found
        exact constant (isBareByte_of_eq null (by decide)) (List.all_eq_true.mp rfl) found
      by_cases yes : b = byte 't'
      · rw [if_neg null, if_pos yes] at found
        exact constant (isBareByte_of_eq yes (by decide)) (List.all_eq_true.mp rfl) found
      by_cases no : b = byte 'f'
      · rw [if_neg null, if_neg yes, if_pos no] at found
        exact constant (isBareByte_of_eq no (by decide)) (List.all_eq_true.mp rfl) found
      by_cases minus : b = byte '-'
      · rw [if_neg null, if_neg yes, if_neg no, if_pos minus] at found
        exact number (.cons (isBareByte_of_eq minus (by decide)) (.refl after)) found
      by_cases digit : isDigit b = true
      · rw [if_neg null, if_neg yes, if_neg no, if_neg minus, if_pos digit] at found
        exact number (.refl _) found
      rw [if_neg null, if_neg yes, if_neg no, if_neg minus, if_neg digit] at found
      -- What else there is are strings, arrays and objects.
      refine Fallible.of_ite found (other fun _ => id) fun found => ?_
      refine Fallible.of_ite found (fun items => ?_) fun found =>
        Fallible.of_ite found (fun members => ?_) fun failed => by cases failed
      · refine Fallible.of_ite items (fun failed => by cases failed) fun items => ?_
        split at items
        · cases items
        · refine Fallible.of_ite items (fun empty => ?_) (other fun _ => id)
          cases empty
          exact absurd bare id
      · refine Fallible.of_ite members (fun failed => by cases failed) fun members => ?_
        split at members
        · cases members
        · refine Fallible.of_ite members (fun empty => ?_) (other fun _ => id)
          cases empty
          exact absurd bare id

theorem bare_of_read {kind : Input} {input : List UInt8} {value : Value} (bare : IsBare value)
    (found : read kind input = .ok value) : ∀ b ∈ input, isBareByte b = true := by
  cases document : readDocument input with
  | error fault => simp [read, document, Except.mapError] at found
  | ok whole =>
    simp only [read, document, Except.mapError, Except.ok.injEq] at found
    subst found
    rw [readDocument, Fallible.bind_eq_ok_iff] at document
    obtain ⟨⟨first, rest⟩, valueRead, last⟩ := document
    dsimp only at last
    split at last
    · rename_i ends
      cases last
      have passed := (overBare_of_readValue bare valueRead).trans (.spaces rest)
      rw [ends] at passed
      obtain ⟨taken, rfl, allBare⟩ := passed
      simpa using allBare
    · cases last

end Json

namespace Query

open Text

def isBareChar (c : Char) : Bool := decide (0x80 ≤ c.toNat) || Json.isBareByte (Json.byte c)

theorem bare_of_bareLiteral? {text : List Char} {literal : Literal}
    (found : bareLiteral? text = some literal) : ∀ c ∈ text, isBareChar c = true := by
  obtain ⟨value, bare, textRead⟩ : ∃ value, Json.IsBare value ∧
      Json.read .text (Utf8.encode text) = .ok value := by
    unfold bareLiteral? at found
    split at found
    · rename_i textRead
      exact ⟨.null, True.intro, textRead⟩
    · rename_i b textRead
      exact ⟨.bool b, True.intro, textRead⟩
    · rename_i n textRead
      exact ⟨.number n, True.intro, textRead⟩
    · cases found
  intro c member
  by_cases wide : 0x80 ≤ c.toNat
  · simp [isBareChar, wide]
  · have single : Utf8.encodeChar c = [Json.byte c] := by
      simp [Utf8.encodeChar, Json.byte, Nat.lt_of_not_le wide]
    have inside : Json.byte c ∈ Utf8.encode text :=
      List.mem_flatMap.mpr ⟨c, member, by simp [single]⟩
    simp [isBareChar, Json.bare_of_read bare textRead _ inside]

end Query

end Reconcile
