import TriBench.Text.Number

/-!
# Decimal texts

The digits of a number, and the number of its digits. Main statements: `decimal?_ofInt`, every
integer is read back from its decimal text, however large it is, and `int64?_eq_some_iff`, which
texts are integers of 64 bits.
-/

namespace TriBench.Text

theorem ofNat_ne_nil (n : Nat) : ofNat n ≠ [] := Nat.toDigits_ne_nil

theorem isDigit_of_mem_ofNat {n : Nat} {c : Char} (h : c ∈ ofNat n) : c.isDigit :=
  Nat.isDigit_of_mem_toDigits (by decide) (by decide) h

theorem not_mem_ofNat {c : Char} (hc : c.isDigit = false) (n : Nat) : c ∉ ofNat n := by
  intro h
  exact absurd (isDigit_of_mem_ofNat h) (by simp [hc])

theorem head?_ofNat_ne_zero {n : Nat} (h : 0 < n) : (ofNat n).head? ≠ some '0' := by
  induction n using Nat.strongRecOn with
  | ind n ih =>
    unfold ofNat at ih ⊢
    rw [Nat.toDigits_eq_if (by decide)]
    split
    · rename_i hn
      have hall : ∀ d, d < 10 → 0 < d → [d.digitChar].head? ≠ some '0' := by decide
      exact hall n hn h
    · rw [List.head?_append, Option.or_of_isSome (List.isSome_head?.2 Nat.toDigits_ne_nil)]
      exact ih (n / 10) (by omega) (by omega)

theorem isDigit_iff (c : Char) : c.isDigit ↔ '0' ≤ c ∧ c ≤ '9' := by
  simp [Char.isDigit, Char.le_def]

theorem digitsFrom?_eq {s : Text} (h : ∀ c ∈ s, c.isDigit) (acc : Nat) :
    digitsFrom? acc s = some (Nat.ofDigitChars 10 s acc) := by
  induction s generalizing acc with
  | nil => simp [digitsFrom?]
  | cons c r ih =>
    have hc := (isDigit_iff c).1 (h c (List.mem_cons_self ..))
    rw [digitsFrom?, digit?, if_pos hc, Option.bind_some, ih fun d hd => h d (List.mem_cons_of_mem c hd),
      Nat.ofDigitChars_cons]

theorem isDigit_of_digitsFrom? {s : Text} {acc n : Nat} (h : digitsFrom? acc s = some n) :
    ∀ c ∈ s, c.isDigit := by
  induction s generalizing acc with
  | nil => intro c hc; cases hc
  | cons c r ih =>
    rw [digitsFrom?, Option.bind_eq_some_iff] at h
    obtain ⟨d, hd, hr⟩ := h
    have hc : c.isDigit := by
      unfold digit? at hd
      split at hd
      · rename_i hrange
        exact (isDigit_iff c).2 hrange
      · cases hd
    intro c' hc'
    rcases List.mem_cons.1 hc' with rfl | hc'
    · exact hc
    · exact ih hr c' hc'

theorem digits?_eq_some_iff {s : Text} {n : Nat} :
    digits? s = some n ↔ s ≠ [] ∧ (∀ c ∈ s, c.isDigit) ∧ n = Nat.ofDigitChars 10 s 0 := by
  by_cases hne : s = []
  · simp [digits?, hne]
  · rw [digits?, if_neg hne]
    constructor
    · intro h
      have hdigits := isDigit_of_digitsFrom? h
      rw [digitsFrom?_eq hdigits] at h
      exact ⟨hne, hdigits, (Option.some.inj h).symm⟩
    · rintro ⟨-, hdigits, rfl⟩
      exact digitsFrom?_eq hdigits 0

theorem digits?_ofNat (n : Nat) : digits? (ofNat n) = some n := by
  rw [digits?, if_neg (ofNat_ne_nil n), digitsFrom?_eq fun c => isDigit_of_mem_ofNat, ofNat,
    Nat.ofDigitChars_ten_toDigits]

theorem uint64?_ofNat {n : Nat} (h : n ≤ maxUInt64) : uint64? (ofNat n) = some n := by
  unfold uint64?
  split
  · rename_i hplus
    have hdigit : ('+').isDigit := isDigit_of_mem_ofNat (n := n) (by rw [hplus]; exact List.mem_cons_self ..)
    exact absurd hdigit (by decide)
  · rw [digits?_ofNat]
    simp [Option.filter_some, h]

def decimal? : Text → Option Int
  | '-' :: r => (digits? r).map fun n => -(n : Int)
  | s => (digits? s).map fun n => (n : Int)

theorem decimal?_ofNat (n : Nat) : decimal? (ofNat n) = some (n : Int) := by
  unfold decimal?
  split
  · rename_i h
    have hminus : ('-').isDigit := isDigit_of_mem_ofNat (n := n) (by rw [h]; exact List.mem_cons_self ..)
    exact absurd hminus (by decide)
  · rw [digits?_ofNat]; rfl

theorem decimal?_ofInt (i : Int) : decimal? (ofInt i) = some i := by
  cases i with
  | ofNat n => exact decimal?_ofNat n
  | negSucc n =>
    rw [ofInt, decimal?, digits?_ofNat]
    rfl

/-! ## Integers of 64 bits -/

inductive Signed : Text → Int → Prop
  | unsigned {ds : Text} (hne : ds ≠ []) (h : ∀ c ∈ ds, c.isDigit) : Signed ds (Nat.ofDigitChars 10 ds 0)
  | plus {ds : Text} (hne : ds ≠ []) (h : ∀ c ∈ ds, c.isDigit) : Signed ('+' :: ds) (Nat.ofDigitChars 10 ds 0)
  | minus {ds : Text} (hne : ds ≠ []) (h : ∀ c ∈ ds, c.isDigit) :
    Signed ('-' :: ds) (-(Nat.ofDigitChars 10 ds 0 : Int))

def InInt64 (i : Int) : Prop := -9223372036854775808 ≤ i ∧ i < 9223372036854775808

instance (i : Int) : Decidable (InInt64 i) := inferInstanceAs (Decidable (_ ∧ _))

theorem inInt64_natCast (n : Nat) : InInt64 n ↔ n ≤ maxInt64 := by
  have hmax : maxInt64 = 9223372036854775807 := by decide
  unfold InInt64
  omega

theorem inInt64_neg_natCast (n : Nat) : InInt64 (-(n : Int)) ↔ n ≤ maxInt64 + 1 := by
  have hmax : maxInt64 = 9223372036854775807 := by decide
  unfold InInt64
  omega

/-- What may stand before the digits decides which limit they have. -/
theorem bind_digits?_eq_some_iff {ds : Text} {limit : Nat} {value : Nat → Int} {i : Int} :
    ((digits? ds).bind fun n => if n ≤ limit then some (value n) else none) = some i ↔
      ds ≠ [] ∧ (∀ c ∈ ds, c.isDigit) ∧ i = value (Nat.ofDigitChars 10 ds 0) ∧
      Nat.ofDigitChars 10 ds 0 ≤ limit := by
  rw [Option.bind_eq_some_iff]
  constructor
  · rintro ⟨n, hn, hi⟩
    obtain ⟨hne, hdigits, rfl⟩ := digits?_eq_some_iff.1 hn
    split at hi
    · rename_i hle
      exact ⟨hne, hdigits, (Option.some.inj hi).symm, hle⟩
    · cases hi
  · rintro ⟨hne, hdigits, rfl, hle⟩
    exact ⟨_, digits?_eq_some_iff.2 ⟨hne, hdigits, rfl⟩, if_pos hle⟩

/-- **Which texts are integers of 64 bits.** -/
theorem int64?_eq_some_iff {s : Text} {i : Int} : int64? s = some i ↔ Signed s i ∧ InInt64 i := by
  unfold int64?
  split
  · rename_i r
    rw [bind_digits?_eq_some_iff]
    constructor
    · rintro ⟨hne, hdigits, rfl, hle⟩
      exact ⟨.minus hne hdigits, (inInt64_neg_natCast _).2 hle⟩
    · rintro ⟨hs, hi⟩
      cases hs with
      | unsigned hne h => exact absurd (h '-' (List.mem_cons_self ..)) (by decide)
      | minus hne h => exact ⟨hne, h, rfl, (inInt64_neg_natCast _).1 hi⟩
  · rename_i r
    rw [bind_digits?_eq_some_iff]
    constructor
    · rintro ⟨hne, hdigits, rfl, hle⟩
      exact ⟨.plus hne hdigits, (inInt64_natCast _).2 hle⟩
    · rintro ⟨hs, hi⟩
      cases hs with
      | unsigned hne h => exact absurd (h '+' (List.mem_cons_self ..)) (by decide)
      | plus hne h => exact ⟨hne, h, rfl, (inInt64_natCast _).1 hi⟩
  · rename_i hminus hplus
    rw [bind_digits?_eq_some_iff]
    constructor
    · rintro ⟨hne, hdigits, rfl, hle⟩
      exact ⟨.unsigned hne hdigits, (inInt64_natCast _).2 hle⟩
    · rintro ⟨hs, hi⟩
      cases hs with
      | unsigned hne h => exact ⟨hne, h, rfl, (inInt64_natCast _).1 hi⟩
      | plus hne h => exact absurd rfl (hplus _)
      | minus hne h => exact absurd rfl (hminus _)

theorem signed_ofInt (i : Int) : Signed (ofInt i) i := by
  have hdigits : ∀ n : Nat, Nat.ofDigitChars 10 (ofNat n) 0 = n := fun n => Nat.ofDigitChars_ten_toDigits
  cases i with
  | ofNat n =>
    have h := Signed.unsigned (ofNat_ne_nil n) fun c => isDigit_of_mem_ofNat
    rwa [hdigits] at h
  | negSucc n =>
    have h := Signed.minus (ofNat_ne_nil (n + 1)) fun c => isDigit_of_mem_ofNat
    rwa [hdigits] at h

end TriBench.Text
