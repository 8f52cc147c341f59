/-!
# Numerals

Natural numbers written in a base up to sixteen, with small letters, and read back.
-/
namespace Workbench.Text

def digitChar (n : Nat) : Char := if n < 10 then Char.ofNat (48 + n) else Char.ofNat (87 + n)

def digitValue? (c : Char) : Option Nat :=
  let n := c.toNat
  if 48 ≤ n ∧ n ≤ 57 then some (n - 48)
  else if 97 ≤ n ∧ n ≤ 102 then some (n - 87)
  else if 65 ≤ n ∧ n ≤ 70 then some (n - 55)
  else none

def isDigitOf (base : Nat) (c : Char) : Bool := (digitValue? c).any (· < base)

/-- A number written in a base of at least two, without leading zeros. -/
def numeral (base : Nat) (n : Nat) : List Char :=
  if _large : 2 ≤ base ∧ base ≤ n then numeral base (n / base) ++ [digitChar (n % base)]
  else [digitChar n]
termination_by n
decreasing_by exact Nat.div_lt_self (by omega) (by omega)

def numberOf (base : Nat) (digits : List Char) : Nat :=
  digits.foldl (fun n c => n * base + (digitValue? c).getD 0) 0

def decimal (n : Nat) : String := String.ofList (numeral 10 n)

def decimalInt (i : Int) : String :=
  if i < 0 then "-" ++ decimal i.natAbs else decimal i.natAbs

theorem digitValue?_digitChar {n : Nat} (small : n < 16) : digitValue? (digitChar n) = some n := by
  have all : ∀ n < 16, digitValue? (digitChar n) = some n := by decide
  exact all n small

theorem numberOf_numeral (base n : Nat) (two : 2 ≤ base) (sixteen : base ≤ 16) :
    numberOf base (numeral base n) = n := by
  induction n using Nat.strongRecOn with
  | _ n ih =>
    unfold numeral
    split
    next large =>
      have smaller : n / base < n := Nat.div_lt_self (by omega) (by omega)
      have digit : n % base < 16 := Nat.lt_of_lt_of_le (Nat.mod_lt _ (by omega)) sixteen
      have front := ih _ smaller
      unfold numberOf at front ⊢
      rw [List.foldl_append, front]
      simp only [List.foldl_cons, List.foldl_nil, digitValue?_digitChar digit, Option.getD_some]
      rw [Nat.mul_comm]
      exact Nat.div_add_mod n base
    next small =>
      have digit : n < 16 := by omega
      simp [numberOf, digitValue?_digitChar digit]

end Workbench.Text
