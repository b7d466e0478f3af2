import TriBench.Text.Blank

/-!
# Trimmed texts

Trimming takes away the longest runs of blanks at both ends and nothing else. Main statement:
`trim_eq_iff`, the trimmed text is the one that neither starts nor ends with a blank and has only
blanks around it.
-/

namespace TriBench.Text

theorem not_isBlank_of_graphic {c : Char} (h : 0x20 < c.toNat) (h' : c.toNat < 0x7F) : isBlank c = false := by
  rw [Bool.eq_false_iff, ne_eq, isBlank, List.any_eq_true]
  rintro ⟨r, hr, hc⟩
  rw [Bool.and_eq_true, decide_eq_true_eq, decide_eq_true_eq] at hc
  have hranges : ∀ r ∈ blankRanges, r.2 ≤ 0x20 ∨ 0x7F ≤ r.1 := by decide
  rcases hranges r hr with hr | hr <;> omega

structure IsTrimmed (s : Text) : Prop where
  start : ∀ c ∈ s.head?, isBlank c = false
  finish : ∀ c ∈ s.getLast?, isBlank c = false

theorem all_not_isBlank_iff (c? : Option Char) :
    (c?.all fun c => !isBlank c) = true ↔ ∀ c ∈ c?, isBlank c = false := by
  simp [Option.all_eq_true]

instance (s : Text) : Decidable s.IsTrimmed :=
  decidable_of_iff ((s.head?.all fun c => !isBlank c) = true ∧ (s.getLast?.all fun c => !isBlank c) = true)
    ⟨fun ⟨h₁, h₂⟩ => ⟨(all_not_isBlank_iff _).1 h₁, (all_not_isBlank_iff _).1 h₂⟩,
      fun h => ⟨(all_not_isBlank_iff _).2 h.start, (all_not_isBlank_iff _).2 h.finish⟩⟩

structure Trims (s t : Text) : Prop where
  around : ∃ before after, s = before ++ t ++ after ∧ (∀ c ∈ before, isBlank c = true) ∧
    ∀ c ∈ after, isBlank c = true
  trimmed : t.IsTrimmed

theorem trimStart_append {before : Text} (h : ∀ c ∈ before, isBlank c = true) (s : Text) :
    trimStart (before ++ s) = trimStart s :=
  List.dropWhile_append_of_pos h

theorem trimEnd_append (s : Text) {after : Text} (h : ∀ c ∈ after, isBlank c = true) :
    trimEnd (s ++ after) = trimEnd s := by
  unfold trimEnd
  rw [List.reverse_append, List.dropWhile_append_of_pos]
  intro c hc
  exact h c (List.mem_reverse.1 hc)

theorem trimStart_of_start {s : Text} (h : ∀ c ∈ s.head?, isBlank c = false) : trimStart s = s := by
  cases s with
  | nil => rfl
  | cons c r => exact List.dropWhile_cons_of_neg (by simp [h c rfl])

theorem trimEnd_of_finish {s : Text} (h : ∀ c ∈ s.getLast?, isBlank c = false) : trimEnd s = s := by
  unfold trimEnd
  rw [← List.head?_reverse] at h
  have hstart : s.reverse.dropWhile isBlank = s.reverse := trimStart_of_start h
  rw [hstart, List.reverse_reverse]

theorem IsTrimmed.trim_eq {s : Text} (h : s.IsTrimmed) : trim s = s := by
  rw [trim, trimStart_of_start h.start, trimEnd_of_finish h.finish]

theorem Trims.trim_eq {s t : Text} (h : Trims s t) : trim s = t := by
  obtain ⟨⟨before, after, rfl, hbefore, hafter⟩, ht⟩ := h
  rw [trim, List.append_assoc, trimStart_append hbefore]
  cases t with
  | nil =>
    have hafter' := trimStart_append hafter []
    rw [List.append_nil] at hafter'
    rw [List.nil_append, hafter']
    rfl
  | cons c r =>
    have hstart : trimStart (c :: r ++ after) = c :: r ++ after := trimStart_of_start ht.start
    rw [hstart, trimEnd_append _ hafter, trimEnd_of_finish ht.finish]

/-! ## What is taken away -/

theorem exists_trimStart (s : Text) : ∃ before, s = before ++ trimStart s ∧ ∀ c ∈ before, isBlank c = true :=
  ⟨s.takeWhile isBlank, List.takeWhile_append_dropWhile.symm, List.all_eq_true.1 List.all_takeWhile⟩

theorem exists_trimEnd (s : Text) : ∃ after, s = trimEnd s ++ after ∧ ∀ c ∈ after, isBlank c = true := by
  obtain ⟨before, hs, hbefore⟩ := exists_trimStart s.reverse
  refine ⟨before.reverse, ?_, fun c hc => hbefore c (List.mem_reverse.1 hc)⟩
  rw [trimEnd, ← List.reverse_append]
  exact List.reverse_eq_iff.1 hs

theorem start_trimStart (s : Text) : ∀ c ∈ (trimStart s).head?, isBlank c = false := by
  intro c hc
  have hhead := List.head?_dropWhile_not isBlank s
  rw [trimStart] at hc
  rw [hc] at hhead
  exact hhead

theorem finish_trimEnd (s : Text) : ∀ c ∈ (trimEnd s).getLast?, isBlank c = false := by
  unfold trimEnd
  rw [List.getLast?_reverse]
  exact start_trimStart s.reverse

theorem isTrimmed_trim (s : Text) : (trim s).IsTrimmed where
  start := by
    -- a text that is cut at its end starts as before
    intro c hc
    obtain ⟨r, hr⟩ := trimEnd_prefix (trimStart s)
    refine start_trimStart s c ?_
    rw [trim] at hc
    rw [← hr, List.head?_append, hc]
    rfl
  finish := finish_trimEnd (trimStart s)

/-- **What trimming gives.** -/
theorem trim_eq_iff {s t : Text} : trim s = t ↔ Trims s t := by
  constructor
  · rintro rfl
    obtain ⟨before, hbefore, hblank⟩ := exists_trimStart s
    obtain ⟨after, hafter, hblank'⟩ := exists_trimEnd (trimStart s)
    exact ⟨⟨before, after, by rw [List.append_assoc, trim, ← hafter, ← hbefore], hblank, hblank'⟩,
      isTrimmed_trim s⟩
  · exact Trims.trim_eq

theorem trim_subset (s : Text) : trim s ⊆ s := by
  obtain ⟨⟨before, after, hs, -, -⟩, -⟩ := trim_eq_iff.1 (rfl : trim s = _)
  intro c hc
  rw [hs]
  exact List.mem_append_left _ (List.mem_append_right _ hc)

theorem trim_append (s : Text) {after : Text} (h : ∀ c ∈ after, isBlank c = true) :
    trim (s ++ after) = trim s := by
  obtain ⟨⟨before, after', hs, hbefore, hafter'⟩, htrimmed⟩ := trim_eq_iff.1 (rfl : trim s = _)
  refine trim_eq_iff.2 ⟨⟨before, after' ++ after, ?_, hbefore, List.forall_mem_append.2 ⟨hafter', h⟩⟩,
    htrimmed⟩
  conv => lhs; rw [hs]
  rw [List.append_assoc]

end TriBench.Text
