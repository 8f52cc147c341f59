import Mathlib.Algebra.Group.Nat.Defs
import Workbench.Text.Numeral

/-! What a numeral is made of, and what it can begin with. -/
namespace Workbench.Text

variable {base : Nat}

theorem isDigitOf_digitChar (two : 2 ≤ base) (sixteen : base ≤ 16) (n : Nat) :
    isDigitOf base (digitChar (n % base)) = true := by
  have small : n % base < base := Nat.mod_lt n (by omega)
  rw [isDigitOf, digitValue?_digitChar (by omega), Option.any_some, decide_eq_true small]

theorem isDigitOf_of_mem_numeral (two : 2 ≤ base) (sixteen : base ≤ 16) (n : Nat) :
    ∀ c ∈ numeral base n, isDigitOf base c = true := by
  induction n using Nat.strongRecOn with
  | _ n ih =>
    intro c listed
    unfold numeral at listed
    split at listed
    next large =>
      rcases List.mem_append.mp listed with front | last
      · exact ih (n / base) (Nat.div_lt_self (by omega) (by omega)) c front
      · rw [List.mem_singleton.mp last]
        exact isDigitOf_digitChar two sixteen n
    next small =>
      rw [List.mem_singleton.mp listed, ← Nat.mod_eq_of_lt (show n < base by omega)]
      exact isDigitOf_digitChar two sixteen n

/-- Only the number zero is written with a leading zero. -/
theorem numeral_head (two : 2 ≤ base) (sixteen : base ≤ 16) (n : Nat) :
    ∃ c rest, numeral base n = c :: rest ∧ (c = '0' → n = 0 ∧ rest = []) := by
  induction n using Nat.strongRecOn with
  | _ n ih =>
    unfold numeral
    split
    next large =>
      obtain ⟨c, rest, front, zero⟩ := ih (n / base) (Nat.div_lt_self (by omega) (by omega))
      refine ⟨c, rest ++ [digitChar (n % base)], by rw [front]; rfl, fun leading => ?_⟩
      -- a number that is written in several digits is not less than the base
      have short : n / base = 0 := (zero leading).1
      have least : 1 ≤ n / base := (Nat.one_le_div_iff (by omega)).mpr large.2
      omega
    next small =>
      refine ⟨digitChar n, [], rfl, fun leading => ⟨?_, rfl⟩⟩
      have value := digitValue?_digitChar (n := n) (by omega)
      rw [leading] at value
      exact (Option.some.inj value).symm

/-- A number below a power of the base has no more digits than the power says. -/
theorem length_numeral_le (two : 2 ≤ base) (width n : Nat) (positive : 0 < width)
    (small : n < base ^ width) : (numeral base n).length ≤ width := by
  induction width generalizing n with
  | zero => omega
  | succ width ih =>
    unfold numeral
    split
    next large =>
      have front : n / base < base ^ width := by
        rw [Nat.div_lt_iff_lt_mul (by omega), ← Nat.pow_succ]
        exact small
      -- a number with several digits leaves a digit to the front
      have rest : 0 < width := by
        rcases Nat.eq_zero_or_pos width with rfl | positive
        · rw [Nat.zero_add, Nat.pow_one] at small
          omega
        · exact positive
      rw [List.length_append, List.length_singleton]
      exact Nat.succ_le_succ (ih (n / base) rest front)
    next => exact positive

/-- A digit of a base is one of every larger base. -/
theorem isDigitOf_mono {low high : Nat} (le : low ≤ high) (c : Char)
    (digit : isDigitOf low c = true) : isDigitOf high c = true := by
  unfold isDigitOf at digit ⊢
  cases value : digitValue? c with
  | none => simp [value] at digit
  | some n =>
    simp only [value, Option.any_some, decide_eq_true_eq] at digit ⊢
    omega

/-- A character that a number in base ten can begin with. -/
def StartsNumber (c : Char) : Prop := c = '-' ∨ isDigitOf 10 c = true

theorem StartsNumber.ne {c : Char} (start : StartsNumber c) (other : Char)
    (apart : other ≠ '-' ∧ isDigitOf 10 other = false) : c ≠ other := by
  rintro rfl
  rcases start with minus | digit
  · exact apart.1 minus
  · rw [apart.2] at digit
    cases digit

theorem decimalInt_head (i : Int) : ∃ c rest, (decimalInt i).toList = c :: rest ∧
    StartsNumber c := by
  obtain ⟨c, rest, written, -⟩ := @numeral_head 10 (by omega) (by omega) i.natAbs
  unfold decimalInt decimal
  split
  · exact ⟨'-', c :: rest, by simp [written], .inl rfl⟩
  · refine ⟨c, rest, by simp [written], .inr ?_⟩
    exact isDigitOf_of_mem_numeral (by omega) (by omega) i.natAbs c (by simp [written])

end Workbench.Text
