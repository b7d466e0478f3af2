import TriBench.Text.Utf8

/-!
# Reading encoded text

The decoder takes the bytes of a character and gives the character, and so it does with the bytes of a
text. Main statements: `decode_toBytes` and `decode?_toBytes`, the bytes of a text are UTF-8 and
decode to it.
-/

namespace TriBench.Utf8

/-- The decoder takes these bytes without a fault, gives this text for them and is in this state then. -/
inductive Accepts : State → Bytes → Text → State → Prop
  | done (q : State) : Accepts q [] [] q
  | ascii {b : UInt8} {bs : Bytes} {t : Text} {q : State} (h : b.toNat < 0x80) :
      Accepts .start bs t q → Accepts .start (b :: bs) (Char.ofNat b.toNat :: t) q
  | lead {b : UInt8} {bs : Bytes} {t : Text} {q q' : State} (h : first b = ([], q')) (hq : q' ≠ .start) :
      Accepts q' bs t q → Accepts .start (b :: bs) t q
  | more {b : UInt8} {bs : Bytes} {t : Text} {q : State} {more low high value k : Nat}
      (h : bits? low high b = some k) : Accepts (.within more 0x00 0x3F (64 * value + k)) bs t q →
      Accepts (.within (more + 1) low high value) (b :: bs) t q
  | last {b : UInt8} {bs : Bytes} {t : Text} {q : State} {low high value k : Nat}
      (h : bits? low high b = some k) : Accepts .start bs t q →
      Accepts (.within 0 low high value) (b :: bs) (Char.ofNat (64 * value + k) :: t) q

theorem Accepts.append {q q' q'' : State} {bs bs' : Bytes} {t t' : Text} (h : Accepts q bs t q')
    (h' : Accepts q' bs' t' q'') : Accepts q (bs ++ bs') (t ++ t') q'' := by
  induction h with
  | done q => exact h'
  | ascii hb _ ih => exact .ascii hb (ih h')
  | lead hb hq _ ih => exact .lead hb hq (ih h')
  | more hb _ ih => exact .more hb (ih h')
  | last hb _ ih => exact .last hb (ih h')

theorem decodeFrom_of_accepts {q q' : State} {bs : Bytes} {t : Text} (h : Accepts q bs t q') :
    decodeFrom q bs = t ++ decodeFrom q' [] := by
  induction h with
  | done q => rfl
  | ascii hb _ ih =>
    rw [decodeFrom_ascii _ _ _ hb, decode, ih]
    rfl
  | lead hb _ _ ih => simp only [decodeFrom, step, hb, List.nil_append, ih]
  | more hb _ ih => simp only [decodeFrom, step, hb, List.nil_append, ih]
  | last hb _ ih => simp only [decodeFrom, step, hb, List.cons_append, List.nil_append, ih]

theorem isValidFrom_of_accepts {q q' : State} {bs : Bytes} {t : Text} (h : Accepts q bs t q') :
    isValidFrom q bs = isValidFrom q' [] := by
  induction h with
  | done q => rfl
  | @ascii b _ _ _ hb _ ih =>
    have hlt : b < 0x80 := UInt8.lt_iff_toNat_lt.2 hb
    simp only [isValidFrom, first, hb, if_true, hlt, decide_true, Bool.true_or, Bool.true_and, ih]
  | lead hb hq _ ih =>
    simp only [isValidFrom, hb, ne_eq, hq, not_false_eq_true, decide_true, Bool.or_true, Bool.true_and, ih]
  | more hb _ ih => simp only [isValidFrom, step, hb, Option.isSome_some, Bool.true_and, ih]
  | last hb _ ih => simp only [isValidFrom, step, hb, Option.isSome_some, Bool.true_and, ih]

/-! ## The bytes of a character -/

theorem toNat_ofNat {n : Nat} (h : n < 256) : (UInt8.ofNat n).toNat = n := by
  rw [UInt8.toNat_ofNat', Nat.mod_eq_of_lt h]

theorem bits?_ofNat {low high k : Nat} (hl : low ≤ k) (hh : k ≤ high) (hk : k < 64) :
    bits? low high (UInt8.ofNat (k + 128)) = some k := by
  unfold bits?
  rw [toNat_ofNat (by omega)]
  simp only [Nat.le_add_left, Nat.add_sub_cancel, hl, hh, and_self, if_true]

theorem first_of_two {n : Nat} (h : 0xC2 ≤ n) (h' : n < 0xE0) :
    first (UInt8.ofNat n) = ([], .within 0 0x00 0x3F (n - 0xC0)) := by
  unfold first
  simp only [toNat_ofNat (show n < 256 by omega)]
  rw [if_neg (by omega), if_neg (by omega), if_pos h']

theorem first_of_three {n : Nat} (h : 0xE0 ≤ n) (h' : n < 0xF0) :
    first (UInt8.ofNat n) =
      ([], .within 1 (if n = 0xE0 then 0x20 else 0x00) (if n = 0xED then 0x1F else 0x3F) (n - 0xE0)) := by
  unfold first
  simp only [toNat_ofNat (show n < 256 by omega)]
  rw [if_neg (by omega), if_neg (by omega), if_neg (by omega)]
  by_cases h₀ : n = 0xE0
  · subst h₀; rfl
  · by_cases h₁ : n = 0xED
    · subst h₁; rfl
    · simp only [h₀, h₁, h', if_false, if_true]

theorem first_of_four {n : Nat} (h : 0xF0 ≤ n) (h' : n ≤ 0xF4) :
    first (UInt8.ofNat n) =
      ([], .within 2 (if n = 0xF0 then 0x10 else 0x00) (if n = 0xF4 then 0x0F else 0x3F) (n - 0xF0)) := by
  unfold first
  simp only [toNat_ofNat (show n < 256 by omega)]
  rw [if_neg (by omega), if_neg (by omega), if_neg (by omega), if_neg (by omega),
    if_neg (by omega), if_neg (by omega)]
  by_cases h₀ : n = 0xF0
  · subst h₀; rfl
  · by_cases h₁ : n = 0xF4
    · subst h₁; rfl
    · have hlt : n < 0xF4 := by omega
      simp only [h₀, h₁, hlt, if_false, if_true]

section
variable {low high value k : Nat} (hl : low ≤ k) (hh : k ≤ high) (hk : k < 64)
include hl hh hk

theorem accepts_more {more : Nat} {bs : Bytes} {t : Text}
    (h : Accepts (.within more 0x00 0x3F (64 * value + k)) bs t .start) :
    Accepts (.within (more + 1) low high value) (UInt8.ofNat (k + 128) :: bs) t .start :=
  .more (bits?_ofNat hl hh hk) h

theorem accepts_last {c : Char} (hc : Char.ofNat (64 * value + k) = c) :
    Accepts (.within 0 low high value) [UInt8.ofNat (k + 128)] [c] .start := by
  subst hc
  exact .last (bits?_ofNat hl hh hk) (.done .start)

end

theorem accepts_utf8EncodeChar (c : Char) : Accepts .start (String.utf8EncodeChar c) [c] .start := by
  have hvalid : c.val.toNat < 0xD800 ∨ 0xDFFF < c.val.toNat ∧ c.val.toNat < 0x110000 := by
    have := c.valid
    simp only [UInt32.isValidChar, Nat.isValidChar] at this
    omega
  have hc : Char.ofNat c.val.toNat = c := Char.ofNat_toNat c
  unfold String.utf8EncodeChar
  dsimp only
  generalize c.val.toNat = v at hvalid hc
  split
  · have hb : (UInt8.ofNat v).toNat = v := toNat_ofNat (by omega)
    have hbyte := Accepts.ascii (b := UInt8.ofNat v) (by omega) (.done .start)
    rwa [hb, hc] at hbyte
  split
  · apply Accepts.lead (first_of_two (by omega) (by omega)) nofun
    apply accepts_last (by omega) (by omega) (by omega)
    rw [show 64 * (v / 64 % 32 + 192 - 0xC0) + v % 64 = v by omega, hc]
  split
  · apply Accepts.lead (first_of_three (by omega) (by omega)) nofun
    apply accepts_more (by split <;> omega) (by split <;> omega) (by omega)
    apply accepts_last (by omega) (by omega) (by omega)
    rw [show 64 * (64 * (v / 4096 % 16 + 224 - 0xE0) + v / 64 % 64) + v % 64 = v by omega, hc]
  · apply Accepts.lead (first_of_four (by omega) (by omega)) nofun
    apply accepts_more (by split <;> omega) (by split <;> omega) (by omega)
    apply accepts_more (by omega) (by omega) (by omega)
    apply accepts_last (by omega) (by omega) (by omega)
    rw [show 64 * (64 * (64 * (v / 262144 % 8 + 240 - 0xF0) + v / 4096 % 64) + v / 64 % 64) + v % 64 =
      v by omega, hc]

theorem accepts_toBytes (s : Text) : Accepts .start s.toBytes s .start := by
  unfold Text.toBytes
  induction s with
  | nil => exact .done .start
  | cons c s ih =>
    rw [List.flatMap_cons]
    exact (accepts_utf8EncodeChar c).append ih

/-- **Reading what was written.** The bytes of a text are UTF-8, and decode to it. -/
theorem decode_toBytes (s : Text) : decode s.toBytes = s := by
  rw [decode, decodeFrom_of_accepts (accepts_toBytes s)]
  exact List.append_nil s

theorem decode?_toBytes (s : Text) : decode? s.toBytes = some s := by
  have hvalid : isValidFrom .start s.toBytes = true := by
    rw [isValidFrom_of_accepts (accepts_toBytes s)]
    rfl
  rw [decode?, if_pos hvalid, decode_toBytes]

end TriBench.Utf8
