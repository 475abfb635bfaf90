import Reconcile.Number.Notation
import Reconcile.Text.Digits

namespace Reconcile.Text

theorem ofDigitChars_repr (n : Nat) : Nat.ofDigitChars 10 n.repr.toList 0 = n := by
  rw [Nat.toList_repr, Nat.ofDigitChars_ten_toDigits]

theorem decimalValue_repr (n : Nat) : decimalValue n.repr.toList = n := by
  have commuted : decimalValue n.repr.toList = Nat.ofDigitChars 10 n.repr.toList 0 := by
    simp only [decimalValue, Nat.ofDigitChars_eq_foldl, Nat.mul_comm]
  rw [commuted, ofDigitChars_repr]

theorem le_ofDigitChars (digits : List Char) (start : Nat) :
    start ≤ Nat.ofDigitChars 10 digits start := by
  induction digits generalizing start with
  | nil => simp
  | cons c digits ih =>
    have longer := ih (10 * start + (c.toNat - '0'.toNat))
    rw [Nat.ofDigitChars_cons]
    omega

theorem isDigit_of_mem_repr {n : Nat} {c : Char} (member : c ∈ n.repr.toList) :
    c.isDigit = true := by
  rw [Nat.toList_repr] at member
  exact Nat.isDigit_of_mem_toDigits (by decide) (by decide) member

def twoPlaces (n : Nat) : List Char := [(n / 10).digitChar, (n % 10).digitChar]

theorem isDigit_of_mem_twoPlaces {n : Nat} (small : n < 100) :
    ∀ c ∈ twoPlaces n, c.isDigit = true := by
  have tens : (n / 10).digitChar.isDigit = true := by
    rw [Nat.isDigit_digitChar, decide_eq_true_eq]
    omega
  have ones : (n % 10).digitChar.isDigit = true := by
    rw [Nat.isDigit_digitChar, decide_eq_true_eq]
    omega
  simp [twoPlaces, tens, ones]

theorem repr_eq_append {n : Nat} (large : 10 ≤ n) :
    n.repr.toList = (n / 10).repr.toList ++ [(n % 10).digitChar] := by
  rw [Nat.toList_repr, Nat.toList_repr, Nat.toDigits_of_base_le (by decide) large]

theorem repr_eq_twoPlaces {n : Nat} (large : 10 ≤ n) (small : n < 100) :
    n.repr.toList = twoPlaces n := by
  have first : (n / 10).repr.toList = [(n / 10).digitChar] := by
    rw [Nat.toList_repr, Nat.toDigits_of_lt_base (by omega)]
  rw [repr_eq_append large, first]
  rfl

theorem repr_eq_cons (n : Nat) :
    ∃ first rest, n.repr.toList = first :: rest ∧ first.isDigit = true ∧
      (first = '0' → n = 0 ∧ rest = []) := by
  induction n using Nat.strongRecOn with
  | ind n ih =>
    by_cases small : n < 10
    · refine ⟨n.digitChar, [], ?_, ?_, ?_⟩
      · rw [Nat.toList_repr, Nat.toDigits_of_lt_base small]
      · simp [Nat.isDigit_digitChar, small]
      · simp
    · obtain ⟨first, rest, written, digit, zero⟩ := ih (n / 10) (by omega)
      refine ⟨first, rest ++ [(n % 10).digitChar], ?_, digit, ?_⟩
      · rw [repr_eq_append (by omega), written, List.cons_append]
      · intro isZero
        have above := (zero isZero).1
        omega

theorem renderInt_eq (n : Int) : renderInt n = n.repr.toList := by
  cases n with
  | ofNat n => rfl
  | negSucc n => simp [renderInt, Int.repr]

end Reconcile.Text
