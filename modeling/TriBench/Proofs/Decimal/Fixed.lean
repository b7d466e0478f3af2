import Mathlib.Algebra.Group.Nat.Defs
import TriBench.Decimal.Binary64
import TriBench.Proofs.Text.Decimal

/-!
# Decimals behind a point

A number is written with a fixed number of decimals by a point among its digits. Main statement:
`pointed_eq`, the digits before the point are those of the quotient by a power of ten, and those
behind it are the rest with its leading zeros.
-/

namespace TriBench.Decimal

def lastDigits : Nat → Nat → Text
  | 0, _ => []
  | k + 1, n => lastDigits k (n / 10) ++ [(n % 10).digitChar]

@[simp] theorem length_lastDigits (k n : Nat) : (lastDigits k n).length = k := by
  induction k generalizing n with
  | zero => rfl
  | succ k ih => simp [lastDigits, ih]

theorem isDigit_of_mem_lastDigits {k n : Nat} {c : Char} (h : c ∈ lastDigits k n) : c.isDigit := by
  induction k generalizing n with
  | zero => cases h
  | succ k ih =>
    rcases List.mem_append.1 h with h | h
    · exact ih h
    · rw [List.mem_singleton.1 h, Nat.isDigit_digitChar, decide_eq_true_eq]
      exact Nat.mod_lt n (by decide)

theorem ofDigitChars_lastDigits (k n : Nat) : Nat.ofDigitChars 10 (lastDigits k n) 0 = n % 10 ^ k := by
  induction k generalizing n with
  | zero => simp [lastDigits, Nat.mod_one]
  | succ k ih =>
    have hlast : n % 10 < 10 := Nat.mod_lt n (by decide)
    rw [lastDigits, Nat.ofDigitChars_append, ih,
      Nat.ofDigitChars_cons_digitChar_of_lt_ten hlast, Nat.ofDigitChars_nil,
      Nat.pow_succ', Nat.mod_mul, Nat.add_comm]

/-! ## Digits with leading zeros -/

/-- The digits of a number, at least one more than `k`. -/
def filled (k n : Nat) : Text := List.replicate (k + 1 - (Text.ofNat n).length) '0' ++ Text.ofNat n

theorem filled_succ (k n : Nat) : filled (k + 1) n = filled k (n / 10) ++ [(n % 10).digitChar] := by
  unfold filled Text.ofNat
  by_cases h : n < 10
  · have hzero : n / 10 = 0 := Nat.div_eq_of_lt h
    rw [hzero, Nat.mod_eq_of_lt h, Nat.toDigits_of_lt_base h, Nat.toDigits_zero]
    simp [List.replicate_succ']
  · rw [Nat.toDigits_of_base_le (by decide) (Nat.le_of_not_lt h)]
    simp

theorem filled_eq (k n : Nat) : filled k n = Text.ofNat (n / 10 ^ k) ++ lastDigits k n := by
  induction k generalizing n with
  | zero =>
    have hpos : 0 < (Text.ofNat n).length := Nat.length_toDigits_pos
    have hnone : 0 + 1 - (Text.ofNat n).length = 0 := by omega
    simp [filled, lastDigits, hnone]
  | succ k ih => rw [filled_succ, ih, lastDigits, Nat.div_div_eq_div_mul, Nat.pow_succ', List.append_assoc]

theorem pointed_eq {places : Nat} (h : places ≠ 0) (n : Nat) :
    pointed places n = Text.ofNat (n / 10 ^ places) ++ '.' :: lastDigits places n := by
  have hcut : (filled places n).length - places = (Text.ofNat (n / 10 ^ places)).length := by
    rw [filled_eq, List.length_append, length_lastDigits, Nat.add_sub_cancel]
  unfold pointed
  rw [if_neg h]
  show (filled places n).take ((filled places n).length - places) ++
    '.' :: (filled places n).drop ((filled places n).length - places) = _
  rw [hcut, filled_eq, List.take_left, List.drop_left]

example : pointed 3 42 = ("0.042" : Text) := by decide

end TriBench.Decimal
