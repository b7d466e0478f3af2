import TriBench.Text.Lines
import TriBench.Proofs.Text.Blank
import TriBench.Proofs.Text.Pieces

/-!
# Texts of lines

A text is made of its lines and their ends in one way only. Texts that are written one on a line are
the lines that are read, if none of them holds a line feed or ends in blanks. Main statements:
`lined_lines` and `Lined.lines_eq`, and `trimmed_lines_ofLines`, nothing is lost when the lines are
trimmed as well.
-/

namespace TriBench.Text

/-! ## The lines of a text -/

/-- A text with its lines. A line feed ends a line, or a carriage return and a line feed; the last
line may have no end, if there is anything in it. -/
inductive Lined : Text → List Text → Prop
  | nil : Lined [] []
  | unended {l : Text} (h : '\n' ∉ l) (hne : l ≠ []) : Lined l [l]
  | feed {l s : Text} {ls : List Text} (h : '\n' ∉ l) (hreturn : l.getLast? ≠ some '\r') :
      Lined s ls → Lined (l ++ '\n' :: s) (l :: ls)
  | returnFeed {l s : Text} {ls : List Text} (h : '\n' ∉ l) :
    Lined s ls → Lined (l ++ '\r' :: '\n' :: s) (l :: ls)

theorem dropReturn_of_getLast? {l : Text} (h : l.getLast? ≠ some '\r') : dropReturn l = l := if_neg h

@[simp] theorem dropReturn_concat (l : Text) : dropReturn (l ++ ['\r']) = l := by
  simp [dropReturn]

theorem dropReturn_cases (l : Text) :
    dropReturn l = l ∧ l.getLast? ≠ some '\r' ∨ l = dropReturn l ++ ['\r'] := by
  by_cases h : l.getLast? = some '\r'
  · right
    obtain ⟨r, rfl⟩ := List.getLast?_eq_some_iff.1 h
    rw [dropReturn_concat]
  · exact .inl ⟨dropReturn_of_getLast? h, h⟩

theorem lines_of_not_mem {l : Text} (h : '\n' ∉ l) (hne : l ≠ []) : lines l = [l] := by
  simp [lines, splitOn_of_not_mem h, hne]

theorem Lined.lines_eq {s : Text} {ls : List Text} (h : Lined s ls) : lines s = ls := by
  induction h with
  | nil => rfl
  | unended h hne => exact lines_of_not_mem h hne
  | feed h hreturn _ ih => rw [lines_append_lf _ _ h, dropReturn_of_getLast? hreturn, ih]
  | @returnFeed l s ls h _ ih =>
    have hl : '\n' ∉ l ++ ['\r'] := by simp [h]
    have hs : l ++ '\r' :: '\n' :: s = (l ++ ['\r']) ++ '\n' :: s := by simp
    rw [hs, lines_append_lf _ _ hl, dropReturn_concat, ih]

theorem lined_lines (s : Text) : Lined s (lines s) := by
  by_cases h : '\n' ∈ s
  · obtain ⟨l, r, rfl, hl⟩ := List.eq_append_cons_of_mem h
    have ih := lined_lines r
    rw [lines_append_lf _ _ hl]
    rcases dropReturn_cases l with ⟨heq, hreturn⟩ | heq
    · rw [heq]
      exact .feed hl hreturn ih
    · have hl' : '\n' ∉ dropReturn l := by
        intro h
        rw [heq] at hl
        exact hl (List.mem_append_left _ h)
      have hs : l ++ '\n' :: r = dropReturn l ++ '\r' :: '\n' :: r := by
        conv => lhs; rw [heq]
        simp
      rw [hs]
      exact .returnFeed hl' ih
  · by_cases hne : s = []
    · subst hne
      exact .nil
    · rw [lines_of_not_mem h hne]
      exact .unended h hne
  termination_by s.length

/-- What follows the text starts on a line of its own. -/
def EndsLine (s : Text) : Prop := s = [] ∨ s.getLast? = some '\n'

instance (s : Text) : Decidable s.EndsLine := inferInstanceAs (Decidable (_ ∨ _))

theorem EndsLine.of_feed {l s : Text} (h : EndsLine (l ++ '\n' :: s)) : EndsLine s := by
  cases s with
  | nil => exact .inl rfl
  | cons c s =>
    rcases h with h | h
    · exact absurd h (by simp)
    · rw [List.getLast?_append, List.getLast?_cons_cons, Option.or_of_isSome (by simp)] at h
      exact .inr h

theorem Lined.append {a b : Text} {as bs : List Text} (ha : Lined a as) (hend : a.EndsLine)
    (hb : Lined b bs) :
    Lined (a ++ b) (as ++ bs) := by
  induction ha with
  | nil => exact hb
  | unended h hne =>
    rcases hend with hnil | hlast
    · exact absurd hnil hne
    · exact absurd (List.mem_of_getLast? hlast) h
  | feed h hreturn _ ih =>
    rw [List.append_assoc]
    exact .feed h hreturn (ih hend.of_feed)
  | @returnFeed l s ls h _ ih =>
    have hs : EndsLine ((l ++ ['\r']) ++ '\n' :: s) := by simpa using hend
    rw [List.append_assoc]
    exact .returnFeed h (ih hs.of_feed)

theorem lines_append {a : Text} (h : a.EndsLine) (b : Text) : lines (a ++ b) = lines a ++ lines b :=
  ((lined_lines a).append h (lined_lines b)).lines_eq

theorem EndsLine.append {a b : Text} (ha : a.EndsLine) (hb : b.EndsLine) : (a ++ b).EndsLine := by
  rcases hb with rfl | hb
  · rw [List.append_nil]
    exact ha
  · right
    rw [List.getLast?_append, hb]
    rfl

/-- A line feed after a text that ends in neither part of a line end only ends its last line. -/
theorem Lined.concat {a : Text} {as : List Text} (h : Lined a as) {c : Char} (hlast : a.getLast? = some c)
    (hfeed : c ≠ '\n') (hreturn : c ≠ '\r') : Lined (a ++ ['\n']) as := by
  have hrest : ∀ {l s : Text}, (l ++ '\n' :: s).getLast? = some c → s.getLast? = some c := by
    intro l s hs
    rw [List.getLast?_append, List.getLast?_cons, Option.or_of_isSome rfl, Option.some.injEq] at hs
    cases hs' : s.getLast? with
    | none =>
      rw [hs'] at hs
      exact absurd hs.symm hfeed
    | some d =>
      rw [hs'] at hs
      rw [← hs]
      rfl
  induction h with
  | nil => cases hlast
  | unended h hne =>
    refine .feed h ?_ .nil
    rw [hlast]
    simpa using hreturn
  | feed h hreturn' _ ih =>
    rw [List.append_assoc]
    exact .feed h hreturn' (ih (hrest hlast))
  | @returnFeed l s ls h _ ih =>
    have hlast' : ((l ++ ['\r']) ++ '\n' :: s).getLast? = some c := by
      rw [← hlast]
      simp
    rw [List.append_assoc]
    exact .returnFeed h (ih (hrest hlast'))

theorem lines_append_feed {a : Text} {c : Char} (hlast : a.getLast? = some c) (hfeed : c ≠ '\n')
    (hreturn : c ≠ '\r') (b : Text) :
    lines (a ++ '\n' :: b) = lines a ++ lines b := by
  have hends : EndsLine (a ++ ['\n']) := .inr (List.getLast?_concat ..)
  have hlines := lines_append hends b
  rw [((lined_lines a).concat hlast hfeed hreturn).lines_eq, List.append_assoc] at hlines
  exact hlines

/-- Texts that end in neither part of a line end keep their lines when they are joined by line feeds. -/
theorem lines_joinWith {ts : List Text} (h : ∀ t ∈ ts, ∃ c, t.getLast? = some c ∧ c ≠ '\n' ∧ c ≠ '\r') :
    lines (joinWith ['\n'] ts) = ts.flatMap lines := by
  induction ts with
  | nil => rfl
  | cons t ts ih =>
    have hrest := ih fun t' ht' => h t' (List.mem_cons_of_mem t ht')
    cases ts with
    | nil => simp [joinWith]
    | cons t' ts =>
      obtain ⟨c, hlast, hfeed, hreturn⟩ := h t (List.mem_cons_self ..)
      rw [joinWith_cons_cons, List.append_assoc, List.singleton_append,
        lines_append_feed hlast hfeed hreturn, hrest, List.flatMap_cons (x := t)]

theorem exists_getLast?_trimEnd {s : Text} (h : trimEnd s ≠ []) :
    ∃ c, (trimEnd s).getLast? = some c ∧ c ≠ '\n' ∧ c ≠ '\r' := by
  have hc := List.getLast?_eq_some_getLast h
  generalize (trimEnd s).getLast h = c at hc
  have hblank := finish_trimEnd s c hc
  have hne : ∀ d, isBlank d = true → c ≠ d := by
    rintro d hd rfl
    exact absurd (hblank.symm.trans hd) (by decide)
  exact ⟨c, hc, hne '\n' (by decide), hne '\r' (by decide)⟩

theorem flatMap_lines_filter (ts : List Text) : (ts.filter (· ≠ [])).flatMap lines = ts.flatMap lines := by
  induction ts with
  | nil => rfl
  | cons t ts ih =>
    by_cases h : t = []
    · subst h
      exact ih
    · rw [List.filter_cons_of_pos (by simpa using h), List.flatMap_cons, ih, List.flatMap_cons]

theorem subset_of_mem_lines {s l : Text} (h : l ∈ lines s) : l ⊆ s := by
  rw [lines, List.mem_append] at h
  rcases h with h | h
  · obtain ⟨p, hp, rfl⟩ := List.mem_map.1 h
    have hsub := subset_of_mem_splitOn (List.dropLast_subset _ hp)
    unfold dropReturn
    split
    · exact List.Subset.trans (List.dropLast_subset p) hsub
    · exact hsub
  · obtain ⟨hl, -⟩ := List.mem_filter.1 h
    exact subset_of_mem_splitOn (List.mem_of_getLast? (Option.mem_toList.1 hl))

/-! ## Texts on lines of their own -/

def ofLines (ls : List Text) : Text := ls.flatMap (· ++ ['\n'])

structure IsEntry (s : Text) : Prop where
  ne_nil : s ≠ []
  oneLine : '\n' ∉ s
  start : ∀ c ∈ s.head?, isBlank c = false
  finish : ∀ c ∈ s.getLast?, isBlank c = false

instance (s : Text) : Decidable s.IsEntry :=
  decidable_of_iff (s ≠ [] ∧ '\n' ∉ s ∧ (s.head?.all fun c => !isBlank c) = true ∧
    (s.getLast?.all fun c => !isBlank c) = true)
    ⟨fun ⟨h₁, h₂, h₃, h₄⟩ => ⟨h₁, h₂, (all_not_isBlank_iff _).1 h₃, (all_not_isBlank_iff _).1 h₄⟩,
      fun h => ⟨h.ne_nil, h.oneLine, (all_not_isBlank_iff _).2 h.start, (all_not_isBlank_iff _).2 h.finish⟩⟩

namespace IsEntry
variable {s : Text} (h : s.IsEntry)
include h

theorem isTrimmed : s.IsTrimmed := ⟨h.start, h.finish⟩

theorem dropReturn_eq : dropReturn s = s := by
  have hlast : s.getLast? ≠ some '\r' := by
    intro hr
    have hblank := h.finish '\r' hr
    exact absurd hblank (by decide)
  rw [dropReturn, if_neg hlast]

end IsEntry

theorem lines_ofLines {ls : List Text} (h : ∀ l ∈ ls, l.IsEntry) : lines (ofLines ls) = ls := by
  induction ls with
  | nil => rfl
  | cons l ls ih =>
    have hl := h l (List.mem_cons_self ..)
    have hr : ofLines (l :: ls) = l ++ '\n' :: ofLines ls := by simp [ofLines]
    rw [hr, lines_append_lf _ _ hl.oneLine, hl.dropReturn_eq,
      ih fun l' hl' => h l' (List.mem_cons_of_mem _ hl')]

theorem trimmed_lines_ofLines {ls : List Text} (h : ∀ l ∈ ls, l.IsEntry) :
    ((lines (ofLines ls)).map trim).filter (· ≠ []) = ls := by
  rw [lines_ofLines h]
  have hmap : ls.map trim = ls := by
    conv => rhs; rw [← List.map_id ls]
    exact List.map_congr_left fun l hl => (h l hl).isTrimmed.trim_eq
  rw [hmap, List.filter_eq_self]
  intro l hl
  simpa using (h l hl).ne_nil

end TriBench.Text
