import TriBench.Text.Basic

/-!
# Pieces of a text

Cutting a text at a delimiter and putting pieces together with it undo each other, so a cut is known
by its pieces. Main statements: `splitOn_append`, `splitOn_joinWith` and `length_splitOn`, one piece
more than there are delimiters.
-/

namespace TriBench.Text

variable {d : Char}

theorem joinWith_cons_cons (sep p q : Text) (ps : List Text) :
    joinWith sep (p :: q :: ps) = p ++ sep ++ joinWith sep (q :: ps) := by
  simp [joinWith, List.intercalate_cons_cons]

theorem joinWith_concat {sep : Text} {pieces : List Text} (hne : pieces ≠ []) (p : Text) :
    joinWith sep (pieces ++ [p]) = joinWith sep pieces ++ sep ++ p := by
  induction pieces with
  | nil => exact absurd rfl hne
  | cons q qs ih =>
    cases qs with
    | nil => simp [joinWith, List.intercalate_cons_cons]
    | cons r rs =>
      have hcons := ih (List.cons_ne_nil _ _)
      simp only [List.cons_append, joinWith_cons_cons] at hcons ⊢
      rw [hcons]
      simp

theorem length_le_joinWith (sep : Text) {pieces : List Text} {p : Text} (h : p ∈ pieces) :
    p.length ≤ (joinWith sep pieces).length := by
  induction pieces with
  | nil => cases h
  | cons q qs ih =>
    cases qs with
    | nil =>
      rw [List.mem_singleton.1 h]
      simp [joinWith]
    | cons r rs =>
      rw [joinWith_cons_cons, List.length_append, List.length_append]
      rcases List.mem_cons.1 h with rfl | h
      · omega
      · have := ih h
        omega

theorem mem_joinWith {sep : Text} {c : Char} {pieces : List Text} (h : c ∈ joinWith sep pieces) :
    c ∈ sep ∨ ∃ p ∈ pieces, c ∈ p := by
  induction pieces with
  | nil => exact absurd h List.not_mem_nil
  | cons p ps ih =>
    cases ps with
    | nil => exact .inr ⟨p, List.mem_singleton_self p, by simpa [joinWith] using h⟩
    | cons q qs =>
      rw [joinWith_cons_cons, List.mem_append, List.mem_append] at h
      rcases h with (h | h) | h
      · exact .inr ⟨p, List.mem_cons_self .., h⟩
      · exact .inl h
      · rcases ih h with h | ⟨r, hr, hc⟩
        · exact .inl h
        · exact .inr ⟨r, List.mem_cons_of_mem p hr, hc⟩

theorem length_joinWith_congr (sep : Text) {ps qs : List Text} (h : ps.map List.length = qs.map List.length) :
    (joinWith sep ps).length = (joinWith sep qs).length := by
  induction ps generalizing qs with
  | nil =>
    rw [List.map_nil, eq_comm, List.map_eq_nil_iff] at h
    rw [h]
  | cons p ps ih =>
    rw [List.map_cons, eq_comm, List.map_eq_cons_iff] at h
    obtain ⟨q, qs, rfl, hq, hqs⟩ := h
    have hrest := ih hqs.symm
    have hlength := congrArg List.length hqs
    rw [List.length_map, List.length_map] at hlength
    match ps, qs with
    | [], [] => simpa [joinWith] using hq.symm
    | p' :: ps, q' :: qs =>
      rw [joinWith_cons_cons, joinWith_cons_cons]
      simp only [List.length_append]
      omega

/-! ## Where a text is cut -/

theorem splitOn_of_not_mem {s : Text} (h : d ∉ s) : splitOn d s = [s] := by
  induction s with
  | nil => rfl
  | cons c r ih =>
    simp only [List.mem_cons, not_or] at h
    simp [splitOn, Ne.symm h.1, ih h.2, consHead]

theorem splitOn_append (d : Char) (s t : Text) : splitOn d (s ++ d :: t) = splitOn d s ++ splitOn d t := by
  induction s with
  | nil => simp [splitOn]
  | cons c r ih =>
    simp only [List.cons_append, splitOn, ih]
    split
    · rfl
    · cases hs : splitOn d r with
      | nil => exact absurd hs (splitOn_ne_nil d r)
      | cons q qs => rfl

theorem splitOn_eq_cons (d : Char) (s : Text) : splitOn d s = s.takeWhile (· ≠ d) :: (splitOn d s).tail := by
  induction s with
  | nil => rfl
  | cons c r ih =>
    by_cases h : c = d
    · simp [splitOn, h]
    · rw [splitOn, if_neg h, ih]
      simp [consHead, h]

theorem subset_of_mem_splitOn {s p : Text} (h : p ∈ splitOn d s) : p ⊆ s := by
  induction s generalizing p with
  | nil => rw [List.mem_singleton.1 h]; exact List.Subset.refl _
  | cons c r ih =>
    unfold splitOn at h
    split at h
    · rcases List.mem_cons.1 h with rfl | h
      · exact List.nil_subset _
      · exact List.subset_cons_of_subset c (ih h)
    · rw [splitOn_eq_cons] at h ih
      rcases List.mem_cons.1 h with rfl | h
      · exact List.cons_subset_cons c (ih (List.mem_cons_self ..))
      · exact List.subset_cons_of_subset c (ih (List.mem_cons_of_mem _ h))

theorem length_splitOn (d : Char) (s : Text) : (splitOn d s).length = s.count d + 1 := by
  induction s with
  | nil => rfl
  | cons c r ih =>
    by_cases h : c = d
    · subst h
      rw [splitOn, if_pos rfl, List.length_cons, ih, List.count_cons_self]
    · have hcons : (consHead c (splitOn d r)).length = (splitOn d r).length := by
        rw [splitOn_eq_cons d r]
        rfl
      rw [splitOn, if_neg h, hcons, ih, List.count_cons_of_ne h]

theorem splitOn_joinWith {pieces : List Text} (hne : pieces ≠ []) (h : ∀ p ∈ pieces, d ∉ p) :
    splitOn d (joinWith [d] pieces) = pieces := by
  induction pieces with
  | nil => exact absurd rfl hne
  | cons p ps ih =>
    have hp := h p (List.mem_cons_self ..)
    cases ps with
    | nil => simpa [joinWith] using splitOn_of_not_mem hp
    | cons q qs =>
      have hps := ih (List.cons_ne_nil _ _) fun r hr => h r (List.mem_cons_of_mem _ hr)
      rw [joinWith_cons_cons, List.append_assoc, List.singleton_append, splitOn_append,
        splitOn_of_not_mem hp, hps]
      rfl

theorem splitOn_eq_iff {s : Text} {pieces : List Text} :
    splitOn d s = pieces ↔ pieces ≠ [] ∧ (∀ p ∈ pieces, d ∉ p) ∧ s = joinWith [d] pieces := by
  constructor
  · rintro rfl
    exact ⟨splitOn_ne_nil d s, fun p hp => not_mem_of_mem_splitOn hp, (joinWith_splitOn d s).symm⟩
  · rintro ⟨hne, h, rfl⟩
    exact splitOn_joinWith hne h

theorem splitOn_prepend {t s p : Text} {ps : List Text} (h : d ∉ t) (hs : splitOn d s = p :: ps) :
    splitOn d (t ++ s) = (t ++ p) :: ps := by
  induction t with
  | nil => exact hs
  | cons c t ih =>
    simp only [List.mem_cons, not_or] at h
    rw [List.cons_append, splitOn, if_neg (Ne.symm h.1), ih h.2]
    rfl

theorem splitOn_flatMap {f : Char → Text} (hd : f d = [d]) (hf : ∀ c, c ≠ d → d ∉ f c) (s : Text) :
    splitOn d (s.flatMap f) = (splitOn d s).map (·.flatMap f) := by
  induction s with
  | nil => rfl
  | cons c r ih =>
    rw [List.flatMap_cons]
    by_cases hc : c = d
    · subst hc
      rw [hd, List.singleton_append, splitOn, splitOn, if_pos rfl, if_pos rfl, ih]
      rfl
    · cases hr : splitOn d r with
      | nil => exact absurd hr (splitOn_ne_nil d r)
      | cons p ps =>
        rw [hr] at ih
        have hcons : splitOn d (c :: r) = (c :: p) :: ps :=
          splitOn_prepend (t := [c]) (by simpa using Ne.symm hc) hr
        rw [splitOn_prepend (hf c hc) ih, hcons]
        rfl

theorem splitOn_append_of_not_mem {s t p : Text} {ps : List Text} (h : d ∉ t) (hs : splitOn d s = ps ++ [p]) :
    splitOn d (s ++ t) = ps ++ [p ++ t] := by
  obtain ⟨-, hpieces, hjoin⟩ := splitOn_eq_iff.1 hs
  refine splitOn_eq_iff.2 ⟨by simp, fun q hq => ?_, ?_⟩
  · rcases List.mem_append.1 hq with hq | hq
    · exact hpieces q (List.mem_append_left _ hq)
    · have hp := hpieces p (List.mem_append_right _ (List.mem_singleton_self p))
      rw [List.mem_singleton.1 hq, List.mem_append, not_or]
      exact ⟨hp, h⟩
  · rw [hjoin]
    by_cases hps : ps = []
    · subst hps
      simp [joinWith]
    · rw [joinWith_concat hps, joinWith_concat hps]
      simp

end TriBench.Text
