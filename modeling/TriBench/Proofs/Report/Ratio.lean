import TriBench.Report.Console
import TriBench.Proofs.Decimal.Rounding

/-!
# Ratios in the console report

A sandboxed time is compared with the native one where both are numbers. Main statement:
`ratioCell_regimes`, when a cell is the placeholder, when it is the value alone, and how far its
ratio is from the exact quotient.
-/

namespace TriBench

namespace Text

variable {s : Text} {i : Int}

theorem Signed.noBlank (h : Signed s i) : ' ' ∉ s := by
  have hdigits : ∀ {ds : Text}, (∀ c ∈ ds, c.isDigit) → ' ' ∉ ds :=
    fun hds hmem => absurd (hds ' ' hmem) (by decide)
  cases h with
  | unsigned hne hds => exact hdigits hds
  | plus hne hds | minus hne hds =>
    rw [List.mem_cons, not_or]
    exact ⟨by decide, hdigits hds⟩

theorem not_signed_dashes : ¬ Signed "--" i := by
  have hdash : ∀ {ds : Text}, (∀ c ∈ ds, c.isDigit) → '-' ∉ ds :=
    fun hds hmem => absurd (hds '-' hmem) (by decide)
  intro h
  generalize hs : ("--".toList : Text) = s at h
  cases h with
  | unsigned hne hds => exact hdash hds (by rw [← hs]; decide)
  | plus hne hds => cases hs
  | minus hne hds =>
    have hrest := List.tail_eq_of_cons_eq hs
    exact hdash hds (by rw [← hrest]; decide)

end Text

namespace Measurement

/-- The integers that measurements are read as: -1 stands for what is no signed integer of 64 bits. -/
inductive Reads : Measurement → Int → Prop
  | missing : Reads .notMeasured (-1)
  | number {s : Text} {i : Int} (hs : Text.Signed s i) (hi : Text.InInt64 i) : Reads (.reported s) i
  | noNumber {s : Text} (h : ¬ ∃ i, Text.Signed s i ∧ Text.InInt64 i) : Reads (.reported s) (-1)

theorem reads_iff {m : Measurement} {i : Int} : m.Reads i ↔ i = m.integer := by
  cases m with
  | notMeasured =>
    constructor
    · rintro ⟨⟩
      rfl
    · rintro rfl
      exact .missing
  | reported s =>
    rw [integer]
    cases hread : Text.int64? s with
    | none =>
      have hnone : ¬ ∃ i, Text.Signed s i ∧ Text.InInt64 i := by
        rintro ⟨i, hi⟩
        rw [← Text.int64?_eq_some_iff, hread] at hi
        cases hi
      constructor
      · intro h
        cases h with
        | number hs hi => exact absurd ⟨i, hs, hi⟩ hnone
        | noNumber _ => rfl
      · rintro rfl
        exact .noNumber hnone
    | some j =>
      have hj := Text.int64?_eq_some_iff.1 hread
      constructor
      · intro h
        cases h with
        | number hs hi =>
          have hi' := Text.int64?_eq_some_iff.2 ⟨hs, hi⟩
          rw [hread] at hi'
          exact (Option.some.inj hi').symm
        | noNumber h => exact absurd ⟨j, hj⟩ h
      · rintro rfl
        exact .number hj.1 hj.2

/-- What is read as no negative number is a reported one. -/
theorem exists_of_integer_nonneg {m : Measurement} (h : 0 ≤ m.integer) :
    ∃ s, m = .reported s ∧ Text.Signed s m.integer ∧ Text.InInt64 m.integer := by
  have hreads := reads_iff.2 (rfl : m.integer = m.integer)
  generalize m.integer = i at h hreads
  cases hreads with
  | missing | noNumber => exact absurd h (by decide)
  | number hs hi => exact ⟨_, rfl, hs, hi⟩

end Measurement

namespace Report

open Decimal

theorem exists_hasDecimals_ratio {v b : Nat} (hb : 0 < b) (hlimit : b < 2 ^ 64) :
    ∃ r, HasDecimals 3 (ratio v b) r ∧ |r - v / b| ≤ 1 / 2000 + v / b * (1 / 2 ^ 51) := by
  obtain ⟨r, hr, hnear⟩ := exists_hasDecimals_fixed three_ne_zero ((Binary64.ofNat v).div (Binary64.ofNat b))
  refine ⟨r, hr, ?_⟩
  have hquotient := Binary64.abs_value_quotient_sub_le (v := v) hb hlimit
  have hhalf : (1 : ℚ) / 2 / 10 ^ 3 = 1 / 2000 := by norm_num
  rw [hhalf] at hnear
  exact (abs_sub_le ..).trans (add_le_add hnear hquotient)

section
variable {value base : Measurement} (hvalue : 0 ≤ value.integer)
include hvalue

theorem ratioCell_of_no_base (hbase : base.integer ≤ 0) : ratioCell value base = value.text := by
  rw [ratioCell, if_neg (Int.not_lt.2 hvalue), if_pos hbase]

theorem ratioCell_of_base (hbase : 0 < base.integer) : ratioCell value base =
    Text.ofInt value.integer ++ " (" ++ ratio value.integer.toNat base.integer.toNat ++ ")" := by
  rw [ratioCell, if_neg (Int.not_lt.2 hvalue), if_neg (Int.not_le.2 hbase)]

theorem blank_mem_ratioCell (hbase : 0 < base.integer) : ' ' ∈ ratioCell value base := by
  rw [ratioCell_of_base hvalue hbase]
  simp

theorem ratioCell_ne_placeholder (base : Measurement) : ratioCell value base ≠ placeholder := by
  intro h
  by_cases hbase : base.integer ≤ 0
  · obtain ⟨s, rfl, hs, -⟩ := Measurement.exists_of_integer_nonneg hvalue
    rw [ratioCell_of_no_base hvalue hbase, Measurement.text] at h
    rw [h] at hs
    exact Text.not_signed_dashes hs
  · have hblank := blank_mem_ratioCell hvalue (Int.not_le.1 hbase)
    rw [h] at hblank
    exact absurd hblank (by decide)

theorem eq_reported_ratioCell_iff : value = .reported (ratioCell value base) ↔ base.integer ≤ 0 := by
  obtain ⟨s, hvalue', hs, -⟩ := Measurement.exists_of_integer_nonneg hvalue
  constructor
  · intro h
    apply Int.not_lt.1
    intro hbase
    have hcell : s = ratioCell value base := Measurement.reported.inj (hvalue'.symm.trans h)
    apply hs.noBlank
    rw [hcell]
    exact blank_mem_ratioCell hvalue hbase
  · intro hbase
    rw [ratioCell_of_no_base hvalue hbase, hvalue']
    rfl

end

/-- **The ratio of two measurements.** With `v` and `b` as their readings, the cell is the
placeholder iff `v` is negative; else it is the value as it was reported iff `b` is not positive;
else it is `v` and its ratio to `b` with three decimals, which is off by half of the last one and
some roundings. The number that is divided by is not zero. -/
theorem ratioCell_regimes (value base : Measurement) :
    ∃ v b : Int, (∀ i, value.Reads i ↔ i = v) ∧ (∀ i, base.Reads i ↔ i = b) ∧
    (ratioCell value base = "--" ↔ v < 0) ∧
    (0 ≤ v → (value = .reported (ratioCell value base) ↔ b ≤ 0)) ∧
    (0 ≤ v → 0 < b → (Binary64.ofNat b.toNat).value ≠ 0 ∧
      ∃ s r, ratioCell value base = Text.ofInt v ++ " (" ++ s ++ ")" ∧ HasDecimals 3 s r ∧
        |r - v / b| ≤ 1 / 2000 + v / b * (1 / 2 ^ 51)) := by
  refine ⟨value.integer, base.integer, fun i => Measurement.reads_iff,
    fun i => Measurement.reads_iff, ?_, ?_, ?_⟩
  · constructor
    · intro h
      apply Int.not_le.1
      intro hvalue
      exact ratioCell_ne_placeholder hvalue base h
    · intro hvalue
      rw [ratioCell, if_pos hvalue]
      rfl
  · exact fun hvalue => eq_reported_ratioCell_iff hvalue
  · intro hvalue hbase
    obtain ⟨s, -, -, hlow, hhigh⟩ := Measurement.exists_of_integer_nonneg hbase.le
    obtain ⟨v, hv⟩ := Int.eq_ofNat_of_zero_le hvalue
    obtain ⟨b, hb⟩ := Int.eq_ofNat_of_zero_le hbase.le
    have hcell := ratioCell_of_base hvalue hbase
    rw [hb] at hbase hhigh
    rw [hv, hb, Int.toNat_natCast, Int.toNat_natCast] at hcell
    have hpos : 0 < b := by omega
    obtain ⟨r, hr, herror⟩ := exists_hasDecimals_ratio (v := v) hpos (by omega)
    rw [hv, hb, Int.toNat_natCast, Int.cast_natCast, Int.cast_natCast]
    exact ⟨(Binary64.value_ofNat_pos hpos).ne', _, r, hcell, hr, herror⟩

example : ratioCell (.reported "+0200") (.reported "300") = "200 (0.667)" := by decide +kernel

end Report

end TriBench
