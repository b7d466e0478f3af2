import TriBench.Json.Printer
import TriBench.Json.Reader
import TriBench.Proofs.Text.Decimal

/-!
# Reading blanks, escapes and integers

What the reader makes of the smallest pieces of JSON, whatever follows them. A number must not be
followed by what would go on with it.
-/

namespace TriBench.Json

/-! ## Blanks -/

theorem skipBlank_cons {c : Char} (h : isBlank c = false) (r : Text) : skipBlank (c :: r) = c :: r := by
  simp [skipBlank, h]

theorem skipBlank_skipBlank (s : Text) : skipBlank (skipBlank s) = skipBlank s := by
  unfold skipBlank
  induction s with
  | nil => rfl
  | cons c s ih =>
    by_cases h : isBlank c = true
    · rw [List.dropWhile_cons_of_pos h, ih]
    · rw [List.dropWhile_cons_of_neg h, List.dropWhile_cons_of_neg h]

/-! ## Escapes -/

/-- An escape of four digits that is no half of a surrogate pair, whatever comes next. -/
theorem quoted_hex4 {a b c d : Char} {n : Nat} (h : hex4? a b c d = some n)
    (hn : n < 0xD800 ∨ 0xE000 ≤ n) (r : Text) :
    quoted ('\\' :: 'u' :: a :: b :: c :: d :: r) = (quoted r).map fun p => (Char.ofNat n :: p.1, p.2) := by
  have hlow : ¬ (0xD800 ≤ n ∧ n < 0xDC00) := by omega
  have hhigh : ¬ (0xDC00 ≤ n ∧ n < 0xE000) := by omega
  have hboth : ¬ (0xD800 ≤ n ∧ n < 0xE000) := by omega
  by_cases hr : ∃ a' b' c' d' r', r = '\\' :: 'u' :: a' :: b' :: c' :: d' :: r'
  · obtain ⟨a', b', c', d', r', rfl⟩ := hr
    rw [quoted, h]
    simp only [hlow, hhigh, if_false]
  · rw [quoted, h]
    · simp only [hboth, if_false]
    · intro a' b' c' d' r' hr'
      exact hr ⟨a', b', c', d', r', hr'⟩

/-! ## Numbers -/

def EndsNumber (r : Text) : Prop := ∀ c ∈ r.head?, isDigit c = false ∧ c ≠ '.' ∧ c ≠ 'e' ∧ c ≠ 'E'

theorem endsNumber_nil : EndsNumber [] := by simp [EndsNumber]

theorem endsNumber_cons {c : Char} (h : isDigit c = false ∧ c ≠ '.' ∧ c ≠ 'e' ∧ c ≠ 'E') (r : Text) :
    EndsNumber (c :: r) := by
  simpa [EndsNumber] using h

theorem isDigit_of_mem_ofNat {n : Nat} {c : Char} (h : c ∈ Text.ofNat n) : isDigit c := by
  simpa [isDigit, Char.isDigit, Char.le_def] using Text.isDigit_of_mem_ofNat h

theorem takeWhile_isDigit {s r : Text} (hs : ∀ c ∈ s, isDigit c) (hr : EndsNumber r) :
    (s ++ r).takeWhile isDigit = s := by
  rw [List.takeWhile_append_of_pos hs]
  cases r with
  | nil => simp
  | cons c r => simp [(hr c rfl).1]

theorem dropWhile_isDigit {s r : Text} (hs : ∀ c ∈ s, isDigit c) (hr : EndsNumber r) :
    (s ++ r).dropWhile isDigit = r := by
  rw [List.dropWhile_append_of_pos hs]
  cases r with
  | nil => simp
  | cons c r => simp [(hr c rfl).1]

theorem le_ofDigitChars (s : Text) (n : Nat) : n ≤ Nat.ofDigitChars 10 s n := by
  induction s generalizing n with
  | nil => simp
  | cons c s ih =>
    rw [Nat.ofDigitChars_cons]
    exact Nat.le_trans (by omega) (ih _)

theorem fitting_eq {s : Text} {n : Nat} (h : Nat.ofDigitChars 10 s n < Nat.pow 2 64) :
    fitting n s = (Nat.ofDigitChars 10 s n, []) := by
  induction s generalizing n with
  | nil => simp [fitting]
  | cons c s ih =>
    rw [Nat.ofDigitChars_cons] at h ⊢
    have hnext : 10 * n + digitValue c < Nat.pow 2 64 := Nat.lt_of_le_of_lt (le_ofDigitChars s _) h
    rw [fitting, if_pos hnext]
    exact ih h

theorem unsignedNumber?_ofNat (minus : Bool) (n : Nat) {r : Text} (hr : EndsNumber r) :
    unsignedNumber? minus (Text.ofNat n ++ r) =
      (unsignedNumber?.integer minus (Text.ofNat n)).map (·, r) := by
  have hdigits : ∀ c ∈ Text.ofNat n, isDigit c := fun c => isDigit_of_mem_ofNat
  have hstart : ∀ c r', Text.ofNat n ≠ '0' :: c :: r' := by
    intro c r' h
    rcases Nat.eq_zero_or_pos n with rfl | hn
    · cases h
    · exact Text.head?_ofNat_ne_zero hn (by rw [h]; rfl)
  unfold unsignedNumber?
  rw [takeWhile_isDigit hdigits hr, dropWhile_isDigit hdigits hr]
  dsimp only
  rw [if_neg]
  · cases r with
    | nil => rfl
    | cons c r =>
      obtain ⟨-, hpoint, he, hE⟩ := hr c rfl
      split
      · rename_i h
        cases h
        exact absurd rfl hpoint
      · rename_i h
        cases h
        simp [he, hE]
      · rename_i h
        cases h
  · split
    · rename_i h; exact absurd h (Text.ofNat_ne_nil n)
    · rename_i h; exact absurd h (hstart _ _)
    · simp

theorem integer_ofNat (minus : Bool) {n : Nat} (h : n < Nat.pow 2 64) :
    unsignedNumber?.integer minus (Text.ofNat n) =
      if minus = false then some (.natural n)
      else if 0 < n ∧ n ≤ Nat.pow 2 63 then some (.negative (-(n : Int)))
      else some (.float true (Decimal.Binary64.ofNat n)) := by
  have hn : Nat.ofDigitChars 10 (Text.ofNat n) 0 = n := Nat.ofDigitChars_ten_toDigits
  rw [unsignedNumber?.integer, fitting_eq (by rwa [hn]), hn]

def Number.IsInteger : Number → Prop
  | .natural n => n < Nat.pow 2 64
  | .negative i => i < 0 ∧ i.natAbs ≤ Nat.pow 2 63
  | .float .. => False

theorem number?_text {n : Number} (hn : n.IsInteger) {r : Text} (hr : EndsNumber r) :
    number? (n.text ++ r) = some (n, r) := by
  cases n with
  | natural n =>
    have hminus : ∀ s, Text.ofNat n ++ r ≠ '-' :: s := by
      intro s h
      cases hd : Text.ofNat n with
      | nil => exact Text.ofNat_ne_nil n hd
      | cons c ds =>
        have hc : isDigit c := isDigit_of_mem_ofNat (n := n) (by rw [hd]; exact List.mem_cons_self ..)
        rw [hd] at h
        cases h
        exact absurd hc (by decide)
    rw [Number.text, number?]
    · rw [unsignedNumber?_ofNat false n hr, integer_ofNat false hn]
      rfl
    · exact hminus
  | negative i =>
    obtain ⟨hneg, hle⟩ := hn
    obtain ⟨m, rfl⟩ := Int.eq_negSucc_of_lt_zero hneg
    rw [Int.natAbs_negSucc] at hle
    rw [Number.text, Text.ofInt, List.cons_append, number?, unsignedNumber?_ofNat true _ hr,
      integer_ofNat true (Nat.lt_of_le_of_lt hle (by decide)), if_neg (by decide),
      if_pos ⟨Nat.succ_pos m, hle⟩]
    rfl
  | float => exact hn.elim

end TriBench.Json
