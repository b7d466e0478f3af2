import TriBench.Text.Utf8

/-!
# The order of bytes

Texts are ordered by their characters. UTF-8 keeps this order: the bytes of two texts compare as the
texts do.
-/

namespace TriBench.Text

theorem byte_cons_lt_iff {m n : Nat} (hm : m < 256) (hn : n < 256) (r s : Bytes) :
    UInt8.ofNat m :: r < UInt8.ofNat n :: s ↔ m < n ∨ m = n ∧ r < s := by
  rw [List.cons_lt_cons_iff, UInt8.lt_iff_toNat_lt, ← UInt8.toNat_inj, UInt8.toNat_ofNat', UInt8.toNat_ofNat',
    Nat.mod_eq_of_lt hm, Nat.mod_eq_of_lt hn]

/-- The bytes of the smaller character are smaller at the first place where they differ, so what follows
does not count. -/
theorem utf8EncodeChar_lt {c d : Char} (h : c < d) (r s : Bytes) :
    String.utf8EncodeChar c ++ r < String.utf8EncodeChar d ++ s := by
  have hlt : c.val.toNat < d.val.toNat := h
  have hmax : d.val.toNat < 0x110000 := by
    have := d.valid
    simp only [UInt32.isValidChar, Nat.isValidChar] at this
    omega
  unfold String.utf8EncodeChar
  dsimp only
  generalize c.val.toNat = v at hlt
  generalize d.val.toNat = w at hlt hmax
  have hsix : ∀ n : Nat, n / 4096 = n / 64 / 64 ∧ n / 262144 = n / 64 / 64 / 64 := by omega
  simp only [hsix]
  -- one case for each pair of lengths: the first byte tells the length, further bytes have six bits each
  repeat' split
  all_goals
    simp (disch := omega) only [List.cons_append, List.nil_append, byte_cons_lt_iff]
    omega

theorem lt_of_compare_eq_lt {c d : Char} (h : compare c d = .lt) : c < d := by
  change compareOfLessAndEq c d = .lt at h
  unfold compareOfLessAndEq at h
  split at h
  · assumption
  · split at h <;> cases h

/-- **Byte order.** A text that comes before another has the smaller bytes. -/
theorem toBytes_lt {a b : Text} (h : compare a b = .lt) : toBytes a < toBytes b := by
  induction a generalizing b with
  | nil =>
    cases b with
    | nil => cases h
    | cons d b =>
      cases hd : String.utf8EncodeChar d with
      | nil => exact absurd hd String.utf8EncodeChar_ne_nil
      | cons x l =>
        rw [toBytes, toBytes, List.flatMap_cons, hd]
        exact List.nil_lt_cons x _
  | cons c a ih =>
    cases b with
    | nil => cases h
    | cons d b =>
      rw [List.compare_cons_cons, Ordering.then_eq_lt] at h
      unfold toBytes at ih ⊢
      rw [List.flatMap_cons, List.flatMap_cons]
      rcases h with h | ⟨h, hr⟩
      · exact utf8EncodeChar_lt (lt_of_compare_eq_lt h) _ _
      · rw [Std.compare_eq_iff_eq.1 h]
        exact List.append_left_lt (ih hr)

end TriBench.Text
