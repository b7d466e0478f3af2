import TriBench.Proofs.Sample.Grammar

/-!
# Samples on the wire

Samples that are written one on a line are read back, however their fields are padded and their
lines ended, and what is read from any output can be written so. Main statement: `wire_round_trip`.
-/

namespace TriBench.Sample

/-! ## Ways to write samples -/

structure IsField (t : Text) : Prop where
  noTab : '\t' ∉ t
  noFeed : '\n' ∉ t
  trimmed : t.IsTrimmed

instance (t : Text) : Decidable (IsField t) :=
  decidable_of_iff ('\t' ∉ t ∧ '\n' ∉ t ∧ t.IsTrimmed)
    ⟨fun h => ⟨h.1, h.2.1, h.2.2⟩, fun h => ⟨h.noTab, h.noFeed, h.trimmed⟩⟩

structure IsSendable (s : Sample) : Prop where
  test : IsField s.test
  loops : IsField s.loops
  average : IsField s.average
  param : Text.InInt64 s.param

instance (s : Sample) : Decidable s.IsSendable :=
  decidable_of_iff (IsField s.test ∧ IsField s.loops ∧ IsField s.average ∧ Text.InInt64 s.param)
    ⟨fun h => ⟨h.1, h.2.1, h.2.2.1, h.2.2.2⟩, fun h => ⟨h.test, h.loops, h.average, h.param⟩⟩

def IsMargin (m : Text) : Prop := ∀ c ∈ m, Text.isBlank c = true ∧ c ≠ '\t' ∧ c ≠ '\n'

instance (m : Text) : Decidable (IsMargin m) := List.decidableBAll _ m

def Padded (t p : Text) : Prop := ∃ before after, IsMargin before ∧ IsMargin after ∧ p = before ++ t ++ after

def texts (s : Sample) : List Text := [s.test, Text.ofInt s.param, s.loops, s.average]

def Written (s : Sample) (line : Text) : Prop :=
  ∃ fs, List.Forall₂ Padded s.texts fs ∧ line = Text.joinWith ['\t'] fs

inductive LineEnd : Text → Prop
  | feed : LineEnd ['\n']
  | returnFeed : LineEnd ['\r', '\n']

inductive Sent : List Sample → Text → Prop
  | nil : Sent [] []
  | cons {s : Sample} {ss : List Sample} {line ending rest : Text} (hline : Written s line)
    (hending : LineEnd ending) :
      Sent ss rest → Sent (s :: ss) (line ++ ending ++ rest)

def encode (ss : List Sample) : Text := Text.ofLines (ss.map fun s => Text.joinWith ['\t'] s.texts)

/-! ## Reading what was written -/

theorem isField_ofInt (i : Int) : IsField (Text.ofInt i) := by
  have hmem : ∀ c ∈ Text.ofInt i, 0x20 < c.toNat ∧ c.toNat < 0x7F := by
    have hdigit : ∀ {n : Nat}, ∀ c ∈ Text.ofNat n, 0x20 < c.toNat ∧ c.toNat < 0x7F := by
      intro n c hc
      obtain ⟨hlow, hhigh⟩ := (Text.isDigit_iff c).1 (Text.isDigit_of_mem_ofNat hc)
      have hlow' : '0'.toNat ≤ c.toNat := hlow
      have hhigh' : c.toNat ≤ '9'.toNat := hhigh
      exact ⟨Nat.lt_of_lt_of_le (by decide) hlow', Nat.lt_of_le_of_lt hhigh' (by decide)⟩
    cases i with
    | ofNat n => exact hdigit
    | negSucc n => exact List.forall_mem_cons.2 ⟨by decide, hdigit⟩
  have hblank : ∀ c ∈ Text.ofInt i, Text.isBlank c = false := fun c hc =>
    Text.not_isBlank_of_graphic (hmem c hc).1 (hmem c hc).2
  exact ⟨fun h => absurd (hblank _ h) (by decide), fun h => absurd (hblank _ h) (by decide),
    fun c hc => hblank c (List.mem_of_head? hc), fun c hc => hblank c (List.mem_of_getLast? hc)⟩

theorem Padded.trims {t p : Text} (h : Padded t p) (ht : IsField t) : Text.Trims p t := by
  obtain ⟨before, after, hbefore, hafter, hp⟩ := h
  exact ⟨⟨before, after, hp, fun c hc => (hbefore c hc).1, fun c hc => (hafter c hc).1⟩, ht.trimmed⟩

theorem Padded.not_mem {t p : Text} (h : Padded t p) (ht : IsField t) : '\t' ∉ p ∧ '\n' ∉ p := by
  obtain ⟨before, after, hbefore, hafter, rfl⟩ := h
  have hmargin : ∀ {m : Text}, IsMargin m → '\t' ∉ m ∧ '\n' ∉ m := fun hm =>
    ⟨fun hc => (hm _ hc).2.1 rfl, fun hc => (hm _ hc).2.2 rfl⟩
  simp only [List.mem_append, not_or]
  exact ⟨⟨⟨(hmargin hbefore).1, ht.noTab⟩, (hmargin hafter).1⟩,
    ⟨(hmargin hbefore).2, ht.noFeed⟩, (hmargin hafter).2⟩

theorem IsSendable.isField {s : Sample} (h : s.IsSendable) : ∀ t ∈ s.texts, IsField t := by
  intro t ht
  simp only [texts, List.mem_cons, List.not_mem_nil, or_false] at ht
  rcases ht with rfl | rfl | rfl | rfl
  · exact h.test
  · exact isField_ofInt s.param
  · exact h.loops
  · exact h.average

theorem forall₂_padded {ts fs : List Text} (hts : ∀ t ∈ ts, IsField t) (h : List.Forall₂ Padded ts fs) :
    List.Forall₂ Text.Trims fs ts ∧ ∀ f ∈ fs, '\t' ∉ f ∧ '\n' ∉ f := by
  induction h with
  | nil => exact ⟨.nil, by simp⟩
  | cons h _ ih =>
    rw [List.forall_mem_cons] at hts
    obtain ⟨htrims, hmem⟩ := ih hts.2
    exact ⟨.cons (h.trims hts.1) htrims, List.forall_mem_cons.2 ⟨h.not_mem hts.1, hmem⟩⟩

/-- A line with a sample on it tells the sample, and it is one line. -/
theorem tells_of_written {s : Sample} (hs : s.IsSendable) {line : Text} (h : Written s line) :
    Tells line s ∧ '\n' ∉ line := by
  obtain ⟨fs, hfs, rfl⟩ := h
  obtain ⟨htrims, hmem⟩ := forall₂_padded hs.isField hfs
  have hne : fs ≠ [] := by
    rintro rfl
    cases hfs
  have hfeed : '\n' ∉ Text.joinWith ['\t'] fs := by
    intro h
    rcases Text.mem_joinWith h with h | ⟨f, hf, h⟩
    · exact absurd h (by decide)
    · exact (hmem f hf).2 h
  exact ⟨⟨Text.ofInt s.param, ⟨fs, hne, fun f hf => (hmem f hf).1, rfl, htrims⟩,
    Text.signed_ofInt s.param, hs.param⟩, hfeed⟩

theorem splitOn_ending {line ending : Text} (hline : '\n' ∉ line) (h : LineEnd ending) (rest : Text) :
    ∃ l, Text.splitOn '\n' (line ++ ending ++ rest) = l :: Text.splitOn '\n' rest ∧
      fields l = fields line := by
  rw [List.append_assoc]
  cases h with
  | feed => exact ⟨line, Text.splitOn_append_cons _ _ _ hline, rfl⟩
  | returnFeed =>
    have hreturn : '\n' ∉ line ++ ['\r'] := by simp [hline]
    have hcut := Text.splitOn_append_cons '\n' _ rest hreturn
    rw [List.append_assoc] at hcut
    exact ⟨line ++ ['\r'], hcut, fields_append (List.forall_mem_singleton.2 rfl) (by decide) line⟩

theorem forall₂_tells_of_sent {ss : List Sample} {text : Text} (hss : ∀ s ∈ ss, s.IsSendable)
    (h : Sent ss text) :
    List.Forall₂ Tells ((Text.splitOn '\n' text).filter IsRow) ss := by
  induction h with
  | nil => exact .nil
  | @cons s ss line ending rest hline hending _ ih =>
    rw [List.forall_mem_cons] at hss
    obtain ⟨htells, hfeed⟩ := tells_of_written hss.1 hline
    obtain ⟨l, hcut, hfields⟩ := splitOn_ending hfeed hending rest
    have hl : Tells l s := htells.of_fields_eq hfields.symm
    rw [hcut, filter_cons_of_isRow hl.isRow]
    exact .cons hl (ih hss.2)

/-! ## Writing what was read -/

theorem padded_self (t : Text) : Padded t t := ⟨[], [], by simp [IsMargin], by simp [IsMargin], by simp⟩

theorem sent_encode (ss : List Sample) : Sent ss (encode ss) := by
  induction ss with
  | nil => exact .nil
  | cons s ss ih =>
    have hline : Written s (Text.joinWith ['\t'] s.texts) :=
      ⟨_, List.forall₂_same.2 fun t _ => padded_self t, rfl⟩
    exact .cons hline .feed ih

theorem Tells.isSendable {line : Text} {s : Sample} (hline : '\n' ∉ line) (h : Tells line s) :
    s.IsSendable := by
  obtain ⟨param, hfields, -, hparam⟩ := h
  have hfield : ∀ t ∈ fields line, IsField t := by
    intro t ht
    obtain ⟨f, hf, rfl⟩ := List.mem_map.1 ht
    have hsub : Text.trim f ⊆ line := List.Subset.trans (Text.trim_subset f) (Text.subset_of_mem_splitOn hf)
    exact ⟨fun h => Text.not_mem_of_mem_splitOn hf (Text.trim_subset f h), fun h => hline (hsub h),
      Text.isTrimmed_trim f⟩
  rw [fields_eq_iff.2 hfields] at hfield
  exact ⟨hfield _ (by simp), hfield _ (by simp), hfield _ (by simp), hparam⟩

theorem isSendable_of_parseBatch {text : Text} {ss : List Sample} (h : parseBatch text = .ok ss) :
    ∀ s ∈ ss, s.IsSendable := by
  obtain ⟨-, hss⟩ := parseBatch_eq_ok_iff_pieces.1 h
  have hfeed : ∀ l ∈ (Text.splitOn '\n' text).filter IsRow, '\n' ∉ l := fun l hl =>
    Text.not_mem_of_mem_splitOn (List.mem_filter.1 hl).1
  generalize (Text.splitOn '\n' text).filter IsRow = rows at hss hfeed
  clear h
  induction hss with
  | nil => simp
  | cons hs _ ih =>
    rw [List.forall_mem_cons] at hfeed ⊢
    exact ⟨hs.isSendable hfeed.1, ih hfeed.2⟩

/-- **Round trip.** Samples are read back from every way in which they can be written, and the
samples of every output that is taken in can be written, without any padding, and are read back from
there. -/
theorem wire_round_trip :
    (∀ ss text, ss ≠ [] → (∀ s ∈ ss, s.IsSendable) → Sent ss text → parseBatch text = .ok ss) ∧
      ∀ text ss, parseBatch text = .ok ss →
        (∀ s ∈ ss, s.IsSendable) ∧ Sent ss (encode ss) ∧ parseBatch (encode ss) = .ok ss := by
  have hread : ∀ ss text, ss ≠ [] → (∀ s ∈ ss, s.IsSendable) → Sent ss text → parseBatch text = .ok ss := by
    intro ss text hne hss hsent
    exact parseBatch_eq_ok_iff_pieces.2 ⟨hne, forall₂_tells_of_sent hss hsent⟩
  refine ⟨hread, fun text ss h => ?_⟩
  have hss := isSendable_of_parseBatch h
  exact ⟨hss, sent_encode ss, hread ss _ (parseBatch_eq_ok_iff.1 h).1 hss (sent_encode ss)⟩

/-- Fields with a carriage return inside and without any text, blanks of several kinds around
fields, both line ends and both ends of the range. -/
theorem wire_round_trip_padded :
    let ss : List Sample := [⟨"a\rb", -9223372036854775808, [], "1 s"⟩, ⟨"é", 9223372036854775807, "3", []⟩]
    let line₁ : Text := "\u00A0a\rb \t-9223372036854775808\t \r\t1 s\u2003"
    let line₂ : Text := "é\t9223372036854775807\t3\t"
    let text : Text := line₁ ++ ['\r', '\n'] ++ (line₂ ++ ['\n'] ++ [])
    ss ≠ [] ∧ (∀ s ∈ ss, s.IsSendable) ∧ Sent ss text ∧ parseBatch text = .ok ss ∧
      parseBatch (encode ss) = .ok ss := by
  intro ss line₁ line₂ text
  have hss : ∀ s ∈ ss, s.IsSendable := by decide
  have hline₁ : Written ss[0] line₁ := by
    have htexts : ss[0].texts = (["a\rb", "-9223372036854775808", "", "1 s"] : List Text) := by decide
    refine ⟨["\u00A0a\rb ", "-9223372036854775808", " \r", "1 s\u2003"], ?_, by decide⟩
    rw [htexts]
    exact .cons ⟨"\u00A0", " ", by decide, by decide, by decide⟩ (.cons (padded_self _)
      (.cons ⟨" ", "\r", by decide, by decide, by decide⟩
        (.cons ⟨[], "\u2003", by decide, by decide, by decide⟩ .nil)))
  have hline₂ : Written ss[1] line₂ := ⟨_, List.forall₂_same.2 fun t _ => padded_self t, by decide⟩
  have hsent : Sent ss text := .cons hline₁ .returnFeed (.cons hline₂ .feed .nil)
  have hparse := wire_round_trip.1 ss text (by decide) hss hsent
  exact ⟨by decide, hss, hsent, hparse, (wire_round_trip.2 text ss hparse).2.2⟩

end TriBench.Sample
