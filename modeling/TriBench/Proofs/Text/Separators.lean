import TriBench.Text.Utf8
import TriBench.Proofs.Text.Pieces

/-!
# Separators in encoded text

A byte below 0x80 is one character wherever it stands, and no other bytes make this character, even
where they are no UTF-8. Main statement: `splitOn_decode`, what stands between such bytes is decoded
piece by piece.
-/

namespace TriBench.Utf8

/-! ## Where a sequence ends -/

/-- The numbers that a sequence comes to when it goes on as the decoder awaits it. -/
inductive Leads : State → Nat → Prop
  | last {low high value k : Nat} (hl : low ≤ k) (hh : k ≤ high) :
    Leads (.within 0 low high value) (64 * value + k)
  | more {more low high value k n : Nat} (hl : low ≤ k) (hh : k ≤ high) :
      Leads (.within more 0x00 0x3F (64 * value + k)) n → Leads (.within (more + 1) low high value) n

/-- A sequence comes to nothing but a character, and to none that is a byte by itself. -/
def State.IsSound (q : State) : Prop := ∀ n, Leads q n → n.isValidChar ∧ 0x80 ≤ n

theorem isSound_start : State.start.IsSound := nofun

theorem isSound_first (b : UInt8) : (first b).2.IsSound := by
  have hb := b.toNat_lt
  unfold first
  dsimp only
  repeat' split
  all_goals
    rintro n (_ | ⟨hl, hh, (_ | ⟨hl, hh, (_ | ⟨hl, hh, _⟩)⟩)⟩)
    all_goals
      unfold Nat.isValidChar
      omega

theorem bits?_bounds {low high k : Nat} {b : UInt8} (h : bits? low high b = some k) : low ≤ k ∧ k ≤ high := by
  unfold bits? at h
  dsimp only at h
  split at h
  · rename_i hb
    rw [Option.some.injEq] at h
    rw [← h]
    exact hb.2
  · cases h

theorem isSound_step {q : State} (hq : q.IsSound) (b : UInt8) : (step q b).2.IsSound := by
  cases q with
  | start => exact isSound_first b
  | within more low high value =>
    cases hbits : bits? low high b with
    | none =>
      simp only [step, hbits]
      exact isSound_first b
    | some k =>
      obtain ⟨hl, hh⟩ := bits?_bounds hbits
      cases more <;> simp only [step, hbits]
      case zero => exact isSound_start
      case succ => exact fun n hn => hq n (.more hl hh hn)

/-! ## Characters below 0x80 -/

theorem toNat_charOfNat {n : Nat} (h : n.isValidChar) : (Char.ofNat n).toNat = n := by
  unfold Char.ofNat
  rw [dif_pos h]
  rfl

theorem le_of_mem_finish (q : State) : ∀ c ∈ finish q, 0x80 ≤ c.toNat := by
  cases q with
  | start => simp [finish]
  | within more low high value =>
    rw [finish, List.forall_mem_singleton]
    decide

theorem le_of_mem_first {b : UInt8} (hb : 0x80 ≤ b.toNat) : ∀ c ∈ (first b).1, 0x80 ≤ c.toNat := by
  have hreplacement : 0x80 ≤ replacement.toNat := by decide
  have hascii : ¬ b.toNat < 0x80 := by omega
  unfold first
  simp only [hascii, if_false]
  repeat' split
  all_goals simp [hreplacement]

theorem le_of_mem_step {q : State} (hq : q.IsSound) {b : UInt8} (hb : 0x80 ≤ b.toNat) :
    ∀ c ∈ (step q b).1, 0x80 ≤ c.toNat := by
  cases q with
  | start => exact le_of_mem_first hb
  | within more low high value =>
    cases hbits : bits? low high b with
    | none =>
      simp only [step, hbits]
      exact List.forall_mem_cons.2 ⟨by decide, le_of_mem_first hb⟩
    | some k =>
      obtain ⟨hl, hh⟩ := bits?_bounds hbits
      cases more <;> simp only [step, hbits]
      case zero =>
        obtain ⟨hvalid, hle⟩ := hq _ (.last hl hh)
        rwa [List.forall_mem_singleton, toNat_charOfNat hvalid]
      case succ => exact List.forall_mem_nil _

section
variable {b : UInt8} (hb : b.toNat < 0x80)
include hb

theorem toNat_char : (Char.ofNat b.toNat).toNat = b.toNat := toNat_charOfNat (.inl (by omega))

theorem char_eq_iff {b' : UInt8} (hb' : b'.toNat < 0x80) :
    Char.ofNat b'.toNat = Char.ofNat b.toNat ↔ b' = b := by
  refine ⟨fun h => ?_, fun h => h ▸ rfl⟩
  have hnat := congrArg Char.toNat h
  rw [toNat_char hb, toNat_char hb'] at hnat
  exact UInt8.toNat_inj.1 hnat

theorem count_eq_zero_of_le {t : Text} (h : ∀ c ∈ t, 0x80 ≤ c.toNat) : t.count (Char.ofNat b.toNat) = 0 := by
  rw [List.count_eq_zero]
  intro hmem
  have hle := h _ hmem
  rw [toNat_char hb] at hle
  omega

theorem count_step {q : State} (hq : q.IsSound) (b' : UInt8) :
    (step q b').1.count (Char.ofNat b.toNat) = [b'].count b := by
  by_cases hb' : b'.toNat < 0x80
  · rw [step_ascii q b' hb', List.count_append, count_eq_zero_of_le hb (le_of_mem_finish q), Nat.zero_add]
    simp only [List.count_singleton, beq_iff_eq, char_eq_iff hb hb']
  · have hne : b ∉ [b'] := by
      rw [List.mem_singleton]
      rintro rfl
      exact hb' hb
    rw [count_eq_zero_of_le hb (le_of_mem_step hq (Nat.le_of_not_lt hb')), List.count_eq_zero.2 hne]

theorem count_decodeFrom {q : State} (hq : q.IsSound) (bytes : Bytes) :
    (decodeFrom q bytes).count (Char.ofNat b.toNat) = bytes.count b := by
  induction bytes generalizing q with
  | nil => exact count_eq_zero_of_le hb (le_of_mem_finish q)
  | cons b' bytes ih =>
    rw [decodeFrom, List.count_append, ih (isSound_step hq b'), count_step hb hq, ← List.count_append]
    rfl

/-- A byte below 0x80 is one character wherever it stands, and nothing else is. -/
theorem count_decode (bytes : Bytes) : (decode bytes).count (Char.ofNat b.toNat) = bytes.count b :=
  count_decodeFrom hb isSound_start bytes

theorem decodeFrom_append_ascii (q : State) (bytes rest : Bytes) :
    decodeFrom q (bytes ++ b :: rest) = decodeFrom q bytes ++ Char.ofNat b.toNat :: decode rest := by
  induction bytes generalizing q with
  | nil => exact decodeFrom_ascii q b rest hb
  | cons b' bytes ih => rw [List.cons_append, decodeFrom, decodeFrom, ih, List.append_assoc]

/-- **Bytes below 0x80 keep sequences apart.** The pieces between them are decoded each by itself,
whatever their bytes are. -/
theorem splitOn_decode (bytes : Bytes) :
    Text.splitOn (Char.ofNat b.toNat) (decode bytes) = (bytes.splitOn b).map decode := by
  by_cases h : b ∈ bytes
  · obtain ⟨front, back, hbytes⟩ := List.append_of_mem h
    have hlength : bytes.length = front.length + (back.length + 1) := by
      rw [hbytes, List.length_append, List.length_cons]
    have hcut : decode bytes = decode front ++ Char.ofNat b.toNat :: decode back := by
      rw [hbytes]
      exact decodeFrom_append_ascii hb .start front back
    rw [hcut, Text.splitOn_append, splitOn_decode front, splitOn_decode back, hbytes,
      List.splitOn_append_cons_self, List.map_append]
  · have hmem : Char.ofNat b.toNat ∉ decode bytes := by
      rw [← List.count_eq_zero, count_decode hb, List.count_eq_zero]
      exact h
    rw [Text.splitOn_of_not_mem hmem, List.splitOn_eq_singleton h, List.map_singleton]
termination_by bytes.length

end

end TriBench.Utf8
