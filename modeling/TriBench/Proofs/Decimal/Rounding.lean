import Mathlib.Algebra.Order.Field.Basic
import Mathlib.Algebra.Order.Field.Power
import Mathlib.Tactic.FieldSimp
import Mathlib.Tactic.Linarith
import Mathlib.Tactic.Positivity
import Mathlib.Tactic.Ring
import TriBench.Proofs.Decimal.Fixed

/-!
# Rounding errors

Rounding to binary64 changes a number that is not next to zero by one part in 2⁵³ at most, so a
quotient of integers that are rounded first is off by three such parts and a little more. Main
statements: `abs_value_ofRatio_sub_le`, `abs_value_quotient_sub_le` and `exists_hasDecimals_fixed`.
-/

namespace TriBench.Decimal

/-! ## The nearest integer -/

theorem roundDiv_cases (num den : Nat) :
    roundDiv num den = num / den ∧ 2 * (num % den) ≤ den ∨
      roundDiv num den = num / den + 1 ∧ den ≤ 2 * (num % den) := by
  unfold roundDiv
  dsimp only
  split
  · exact .inl ⟨rfl, by omega⟩
  · split
    · exact .inr ⟨rfl, by omega⟩
    · -- a half goes down from an even quotient and up from an odd one
      rcases Nat.mod_two_eq_zero_or_one (num / den) with h | h <;> rw [h]
      · exact .inl ⟨rfl, by omega⟩
      · exact .inr ⟨rfl, by omega⟩

theorem abs_roundDiv_sub_le {den : Nat} (hden : 0 < den) (num : Nat) :
    |(roundDiv num den : ℚ) - num / den| ≤ 1 / 2 := by
  have hpos : (0 : ℚ) < den := Nat.cast_pos.2 hden
  have hdiv : (num : ℚ) / den = (num / den : Nat) + (num % den : Nat) / den := by
    rw [div_eq_iff hpos.ne', add_mul, div_mul_cancel₀ _ hpos.ne', mul_comm]
    exact_mod_cast (Nat.div_add_mod num den).symm
  have hnonneg : (0 : ℚ) ≤ (num % den : Nat) / den := by positivity
  have hlt : ((num % den : Nat) : ℚ) / den < 1 := by
    rw [div_lt_one hpos]
    exact_mod_cast Nat.mod_lt num hden
  rw [hdiv, abs_le]
  rcases roundDiv_cases num den with ⟨heq, hrest⟩ | ⟨heq, hrest⟩ <;> rw [heq]
  · have hhalf : ((num % den : Nat) : ℚ) / den ≤ 1 / 2 := by
      rw [div_le_div_iff₀ hpos two_pos]
      exact_mod_cast (by omega : num % den * 2 ≤ 1 * den)
    constructor <;> linarith
  · have hhalf : (1 : ℚ) / 2 ≤ (num % den : Nat) / den := by
      rw [div_le_div_iff₀ two_pos hpos]
      exact_mod_cast (by omega : 1 * den ≤ num % den * 2)
    push_cast
    constructor <;> linarith

/-! ## Rounding to binary64 -/

namespace Binary64

def value (b : Binary64) : ℚ := b.significand * 2 ^ b.exponent

theorem cast_pow (b k : Nat) : ((Nat.pow b k : Nat) : ℚ) = (b : ℚ) ^ k := Nat.cast_pow b k

theorem two_zpow_eq (e : Int) : (2 : ℚ) ^ e = 2 ^ e.toNat / 2 ^ (-e).toNat := by
  rcases Int.le_total 0 e with he | he
  · obtain ⟨n, rfl⟩ := Int.eq_ofNat_of_zero_le he
    simp
  · obtain ⟨n, hn⟩ := Int.eq_ofNat_of_zero_le (Int.neg_nonneg_of_nonpos he)
    have hzero : e.toNat = 0 := Int.toNat_of_nonpos he
    rw [hzero, hn, Int.toNat_natCast, pow_zero, one_div, ← zpow_natCast, ← zpow_neg, ← hn, Int.neg_neg]

theorem denominator_pos (b : Binary64) : 0 < b.denominator := Nat.pow_pos two_pos

theorem value_eq_div (b : Binary64) : b.value = b.numerator / b.denominator := by
  unfold value numerator denominator
  simp only [two_zpow_eq, Nat.cast_mul, cast_pow, Nat.cast_ofNat, mul_div_assoc]

theorem value_zero : zero.value = 0 := by simp [value, zero]

/-- The significand has all its digits, unless the number is next to zero. -/
theorem two_zpow_exponentFor_le {num den : Nat} (hnum : 0 < num) (hden : 0 < den)
    (hnormal : (2 : ℚ) ^ (leastExponent + 52) ≤ num / den) :
    (2 : ℚ) ^ (exponentFor num den + 52) ≤ num / den := by
  have hpos : (0 : ℚ) < den := Nat.cast_pos.2 hden
  unfold exponentFor
  dsimp only
  rcases max_choice leastExponent (if den * Nat.pow 2 ((num.log2 : Int) - den.log2).toNat ≤
      num * Nat.pow 2 (-((num.log2 : Int) - den.log2)).toNat then (num.log2 : Int) - den.log2 - 52
      else (num.log2 : Int) - den.log2 - 53) with hmax | hmax <;> rw [hmax]
  · exact hnormal
  · split
    · rename_i hle
      have hcast : (den : ℚ) * 2 ^ ((num.log2 : Int) - den.log2).toNat ≤
          num * 2 ^ (-((num.log2 : Int) - den.log2)).toNat := by
        exact_mod_cast hle
      rw [sub_add_cancel, two_zpow_eq, div_le_div_iff₀ (by positivity) hpos, mul_comm]
      exact hcast
    · -- one power less is reached in any case, by the first digits alone
      have hlow : (2 : ℚ) ^ num.log2 ≤ num := by exact_mod_cast Nat.log2_self_le hnum.ne'
      have hhigh : (den : ℚ) ≤ 2 ^ (den.log2 + 1) := by exact_mod_cast Nat.lt_log2_self.le
      have hexponent : (num.log2 : Int) - den.log2 - 53 + 52 = (num.log2 : Int) - (den.log2 + 1 : Nat) := by
        push_cast; ring
      rw [hexponent, zpow_sub₀ two_ne_zero, zpow_natCast, zpow_natCast]
      exact div_le_div₀ (Nat.cast_nonneg num) hlow hpos hhigh

theorem value_ofRatio {num : Nat} (hnum : num ≠ 0) (den : Nat) :
    (ofRatio num den).value = roundDiv (num * Nat.pow 2 (-exponentFor num den).toNat)
      (den * Nat.pow 2 (exponentFor num den).toNat) * 2 ^ exponentFor num den := by
  unfold ofRatio
  rw [if_neg hnum]
  dsimp only
  split
  · rename_i hcarry
    rw [hcarry, value, cast_pow, cast_pow, zpow_add₀ two_ne_zero]
    norm_num
    ring
  · rfl

/-- **Rounding.** -/
theorem abs_value_ofRatio_sub_le {num den : Nat} (hden : 0 < den)
    (hnormal : num = 0 ∨ (2 : ℚ) ^ (leastExponent + 52) ≤ num / den) :
    |(ofRatio num den).value - num / den| ≤ num / den * (1 / 2 ^ 53) := by
  by_cases hnum : num = 0
  · subst hnum
    simp [ofRatio, value_zero]
  · have hpos : (0 : ℚ) < den := Nat.cast_pos.2 hden
    have hleast := two_zpow_exponentFor_le (Nat.pos_of_ne_zero hnum) hden (hnormal.resolve_left hnum)
    rw [value_ofRatio hnum]
    generalize exponentFor num den = e at hleast ⊢
    have hunit : (0 : ℚ) < 2 ^ e := zpow_pos two_pos e
    have hden' : 0 < den * Nat.pow 2 e.toNat := Nat.mul_pos hden (Nat.pow_pos two_pos)
    have hhalf := abs_roundDiv_sub_le hden' (num * Nat.pow 2 (-e).toNat)
    have hscaled : ((num * Nat.pow 2 (-e).toNat : Nat) : ℚ) / (den * Nat.pow 2 e.toNat : Nat) =
        num / den / 2 ^ e := by
      simp only [two_zpow_eq e, Nat.cast_mul, cast_pow, Nat.cast_ofNat]
      field_simp
    rw [hscaled] at hhalf
    have hunits : (num : ℚ) / den = num / den / 2 ^ e * 2 ^ e := (div_mul_cancel₀ _ hunit.ne').symm
    rw [zpow_add₀ two_ne_zero] at hleast
    calc |(roundDiv (num * Nat.pow 2 (-e).toNat) (den * Nat.pow 2 e.toNat) : ℚ) * 2 ^ e - num / den|
        = |(roundDiv (num * Nat.pow 2 (-e).toNat) (den * Nat.pow 2 e.toNat) : ℚ) -
            num / den / 2 ^ e| * 2 ^ e := by
          conv => lhs; rw [hunits]
          rw [← sub_mul, abs_mul, abs_of_pos hunit]
      _ ≤ 1 / 2 * 2 ^ e := mul_le_mul_of_nonneg_right hhalf hunit.le
      _ ≤ num / den * (1 / 2 ^ 53) := by
          have : (2 : ℚ) ^ (52 : ℤ) = 2 ^ 52 := rfl
          rw [this] at hleast
          linarith

/-! ## Quotients -/

theorem significand_pos {b : Binary64} (h : 0 < b.value) : 0 < b.significand := by
  apply Nat.pos_of_ne_zero
  intro hzero
  simp [value, hzero] at h

theorem numerator_pos {b : Binary64} (h : 0 < b.value) : 0 < b.numerator :=
  Nat.mul_pos (significand_pos h) (Nat.pow_pos two_pos)

/-- Integers are not next to zero, so they are rounded to as many digits as there are. -/
theorem abs_value_ofNat_sub_le (n : Nat) : |(ofNat n).value - n| ≤ n * (1 / 2 ^ 53) := by
  have hnormal : n = 0 ∨ (2 : ℚ) ^ (leastExponent + 52) ≤ n / (1 : Nat) := by
    by_cases hn : n = 0
    · exact .inl hn
    · have hone : (1 : ℚ) ≤ n := by exact_mod_cast Nat.pos_of_ne_zero hn
      have hleast : (2 : ℚ) ^ (leastExponent + 52) ≤ 1 := zpow_le_one_of_nonpos₀ one_le_two (by decide)
      exact .inr (by rw [Nat.cast_one, div_one]; exact hleast.trans hone)
  have hround := abs_value_ofRatio_sub_le Nat.one_pos hnormal
  rw [Nat.cast_one, div_one] at hround
  exact hround

theorem value_ofNat_pos {n : Nat} (hn : 0 < n) : 0 < (ofNat n).value := by
  have hpos : (0 : ℚ) < n := Nat.cast_pos.2 hn
  have herror := (abs_le.1 (abs_value_ofNat_sub_le n)).1
  linarith

theorem abs_value_div_sub_le {a b : Binary64} (hb : 0 < b.value)
    (hnormal : a.value = 0 ∨ (2 : ℚ) ^ (leastExponent + 52) ≤ a.value / b.value) :
    |(a.div b).value - a.value / b.value| ≤ a.value / b.value * (1 / 2 ^ 53) := by
  have hden : 0 < a.denominator * b.numerator := Nat.mul_pos a.denominator_pos (numerator_pos hb)
  have hquotient : ((a.numerator * b.denominator : Nat) : ℚ) / (a.denominator * b.numerator : Nat) =
      a.value / b.value := by
    rw [value_eq_div, value_eq_div, div_div_div_eq, Nat.cast_mul, Nat.cast_mul]
  rw [← hquotient] at hnormal ⊢
  refine abs_value_ofRatio_sub_le hden (hnormal.imp_left fun hzero => ?_)
  have ha : a.numerator = 0 := by
    have hne : (a.denominator : ℚ) ≠ 0 := Nat.cast_ne_zero.2 a.denominator_pos.ne'
    rw [value_eq_div, div_eq_zero_iff, or_iff_left hne] at hzero
    exact_mod_cast hzero
  rw [ha, Nat.zero_mul]

/-- What three roundings by a factor of at most `1 ± u` come to. -/
theorem abs_quotient_sub_le {v b v' b' q u : ℚ} (hu : 0 ≤ u) (hu' : u ≤ 1 / 5) (hv : 0 ≤ v) (hb : 0 < b)
    (hv' : |v' - v| ≤ v * u) (hb' : |b' - b| ≤ b * u) (hq : |q - v' / b'| ≤ v' / b' * u) :
    |q - v / b| ≤ v / b * (4 * u) := by
  rw [abs_le] at hv' hb' hq
  have hless : 0 < 1 - u := by linarith
  have hsquare : 0 ≤ u * (1 - 5 * u) := mul_nonneg hu (by linarith)
  have hnonneg : 0 ≤ v * (1 - u) := mul_nonneg hv hless.le
  have hlow : 0 < b * (1 - u) := mul_pos hb hless
  have hpos : 0 < b' := by linarith
  have hquotient : 0 ≤ v / b := div_nonneg hv hb.le
  have hupper : v' / b' ≤ v / b * ((1 + u) / (1 - u)) := by
    rw [div_mul_div_comm]
    exact div_le_div₀ (mul_nonneg hv (by linarith)) (by linarith) hlow (by linarith)
  have hlower : v / b * ((1 - u) / (1 + u)) ≤ v' / b' := by
    rw [div_mul_div_comm]
    exact div_le_div₀ (by linarith) (by linarith) hpos (by linarith)
  have hmost : (1 + u) / (1 - u) * (1 + u) ≤ 1 + 4 * u := by
    rw [div_mul_eq_mul_div, div_le_iff₀ hless]
    linarith
  have hleast : 1 - 4 * u ≤ (1 - u) / (1 + u) * (1 - u) := by
    rw [div_mul_eq_mul_div, le_div_iff₀ (by linarith)]
    nlinarith only [hsquare, hu]
  have hmost' : v' / b' * (1 + u) ≤ v / b * (1 + 4 * u) := by
    calc v' / b' * (1 + u) ≤ v / b * ((1 + u) / (1 - u)) * (1 + u) :=
      mul_le_mul_of_nonneg_right hupper (by linarith)
      _ = v / b * ((1 + u) / (1 - u) * (1 + u)) := mul_assoc ..
      _ ≤ v / b * (1 + 4 * u) := mul_le_mul_of_nonneg_left hmost hquotient
  have hleast' : v / b * (1 - 4 * u) ≤ v' / b' * (1 - u) := by
    calc v / b * (1 - 4 * u) ≤ v / b * ((1 - u) / (1 + u) * (1 - u)) :=
      mul_le_mul_of_nonneg_left hleast hquotient
      _ = v / b * ((1 - u) / (1 + u)) * (1 - u) := (mul_assoc ..).symm
      _ ≤ v' / b' * (1 - u) := mul_le_mul_of_nonneg_right hlower hless.le
  rw [abs_le]
  constructor <;> linarith

/-- **The quotient of integers.** Both are rounded to binary64, and then their quotient. -/
theorem abs_value_quotient_sub_le {v b : Nat} (hb : 0 < b) (hlimit : b < 2 ^ 64) :
    |((ofNat v).div (ofNat b)).value - v / b| ≤ v / b * (1 / 2 ^ 51) := by
  have hv := abs_value_ofNat_sub_le v
  have hb' := abs_value_ofNat_sub_le b
  have hpos := value_ofNat_pos hb
  have hcast : (0 : ℚ) < b := Nat.cast_pos.2 hb
  have hnormal : (ofNat v).value = 0 ∨
      (2 : ℚ) ^ (leastExponent + 52) ≤ (ofNat v).value / (ofNat b).value := by
    by_cases hzero : v = 0
    · subst hzero
      exact .inl value_zero
    · right
      have hone : (1 : ℚ) ≤ v := by exact_mod_cast Nat.pos_of_ne_zero hzero
      have hmost : (b : ℚ) ≤ 2 ^ 64 := by exact_mod_cast hlimit.le
      have hleast : (2 : ℚ) ^ (leastExponent + 52) ≤ 1 / 2 / 2 ^ 65 := by
        have hpower : (1 : ℚ) / 2 / 2 ^ 65 = 2 ^ (-66 : ℤ) := by norm_num
        rw [hpower]
        exact zpow_le_zpow_right₀ one_le_two (by decide)
      refine hleast.trans (div_le_div₀ ?_ ?_ hpos ?_)
      · linarith [(abs_le.1 hv).1]
      · linarith [(abs_le.1 hv).1]
      · linarith [(abs_le.1 hb').2]
  have hall :=
    abs_quotient_sub_le (by norm_num) (by norm_num) (Nat.cast_nonneg v) hcast hv hb'
      (abs_value_div_sub_le hpos hnormal)
  calc |((ofNat v).div (ofNat b)).value - v / b| ≤ v / b * (4 * (1 / 2 ^ 53)) := hall
    _ = v / b * (1 / 2 ^ 51) := by norm_num

end Binary64

/-! ## Decimals -/

/-- The text is a number with as many decimals, which is `r`. The digits before the point are those
of an integer. -/
def HasDecimals (places : Nat) (s : Text) (r : ℚ) : Prop :=
  ∃ (whole : Nat) (digits : Text), s = Text.ofNat whole ++ '.' :: digits ∧ digits.length = places ∧
    (∀ c ∈ digits, c.isDigit) ∧
    r = whole + Nat.ofDigitChars 10 digits 0 / 10 ^ places

theorem hasDecimals_pointed {places : Nat} (h : places ≠ 0) (n : Nat) :
    HasDecimals places (pointed places n) (n / 10 ^ places) := by
  refine ⟨n / 10 ^ places, lastDigits places n, pointed_eq h n, length_lastDigits ..,
    fun c => isDigit_of_mem_lastDigits, ?_⟩
  have hpos : (0 : ℚ) < 10 ^ places := by positivity
  rw [ofDigitChars_lastDigits, div_eq_iff hpos.ne', add_mul, div_mul_cancel₀ _ hpos.ne', mul_comm]
  exact_mod_cast (Nat.div_add_mod n (10 ^ places)).symm

/-- **The nearest decimal.** -/
theorem exists_hasDecimals_fixed {places : Nat} (h : places ≠ 0) (b : Binary64) :
    ∃ r, HasDecimals places (b.fixed places) r ∧ |r - b.value| ≤ 1 / 2 / 10 ^ places := by
  refine ⟨_, hasDecimals_pointed h _, ?_⟩
  have hpos : (0 : ℚ) < 10 ^ places := by positivity
  have hhalf := abs_roundDiv_sub_le b.denominator_pos (b.numerator * Nat.pow 10 places)
  have hscaled : ((b.numerator * Nat.pow 10 places : Nat) : ℚ) / b.denominator = b.value * 10 ^ places := by
    rw [b.value_eq_div, Nat.cast_mul, Binary64.cast_pow, Nat.cast_ofNat]
    ring
  rw [hscaled] at hhalf
  rw [le_div_iff₀ hpos, ← abs_of_pos hpos, ← abs_mul, sub_mul, abs_of_pos hpos, div_mul_cancel₀ _ hpos.ne']
  exact hhalf

end TriBench.Decimal
