import Mathlib.Data.List.Forall2
import TriBench.Sample
import TriBench.Proofs.Text.Decimal
import TriBench.Proofs.Text.Lines

/-!
# The grammar of outputs

An output is taken in or rejected by its lines alone: those with four fields count, each by its
parameter, and the first parameter that is no integer decides. Main statements: `parseBatch_eq_iff`,
and `parseBatch_eq_ok_iff_pieces`, for which the line feeds are enough to know.
-/

namespace TriBench.Sample

/-! ## Fields -/

/-- The fields of a line, which tabs keep apart, without the blanks around them. -/
def HasFields (line : Text) (ts : List Text) : Prop :=
  ∃ fs, fs ≠ [] ∧ (∀ f ∈ fs, '\t' ∉ f) ∧ line = Text.joinWith ['\t'] fs ∧ List.Forall₂ Text.Trims fs ts

theorem forall₂_trims_iff {fs ts : List Text} : List.Forall₂ Text.Trims fs ts ↔ fs.map Text.trim = ts := by
  rw [← List.forall₂_eq_eq_eq, List.forall₂_map_left_iff]
  simp only [Text.trim_eq_iff]

theorem fields_eq_iff {line : Text} {ts : List Text} : fields line = ts ↔ HasFields line ts := by
  unfold fields HasFields
  simp only [forall₂_trims_iff]
  constructor
  · rintro rfl
    obtain ⟨hne, htab, hline⟩ := Text.splitOn_eq_iff.1 (rfl : Text.splitOn '\t' line = _)
    exact ⟨_, hne, htab, hline, rfl⟩
  · rintro ⟨fs, hne, htab, hline, rfl⟩
    rw [Text.splitOn_eq_iff.2 ⟨hne, htab, hline⟩]

theorem length_fields (line : Text) : (fields line).length = line.count '\t' + 1 := by
  rw [fields, List.length_map, Text.length_splitOn]

def IsRow (line : Text) : Prop := line.count '\t' = 3

instance : DecidablePred IsRow := fun line => inferInstanceAs (Decidable (line.count '\t' = 3))

theorem filter_cons_of_isRow {l : Text} (h : IsRow l) (ls : List Text) :
    (l :: ls).filter IsRow = l :: ls.filter IsRow :=
  List.filter_cons_of_pos (by simpa using h)

theorem filter_cons_of_not_isRow {l : Text} (h : ¬ IsRow l) (ls : List Text) :
    (l :: ls).filter IsRow = ls.filter IsRow :=
  List.filter_cons_of_neg (by simpa using h)

theorem isRow_iff {line : Text} :
    IsRow line ↔ ∃ test param loops average, HasFields line [test, param, loops, average] := by
  simp only [← fields_eq_iff]
  constructor
  · intro h
    have hlength : (fields line).length = 4 := by rw [length_fields, h]
    match hfields : fields line, hlength with
    | [test, param, loops, average], _ => exact ⟨test, param, loops, average, rfl⟩
  · rintro ⟨test, param, loops, average, h⟩
    have hlength := length_fields line
    rw [h] at hlength
    exact (Nat.succ.inj hlength).symm

/-! ## Lines -/

def Tells (line : Text) (s : Sample) : Prop :=
  ∃ param, HasFields line [s.test, param, s.loops, s.average] ∧
    Text.Signed param s.param ∧ Text.InInt64 s.param

def Misfit (line value : Text) : Prop :=
  (∃ test loops average, HasFields line [test, value, loops, average]) ∧
    ¬ ∃ i, Text.Signed value i ∧ Text.InInt64 i

theorem ofLine?_of_fields {line test param loops average : Text}
    (h : HasFields line [test, param, loops, average]) :
    ofLine? line = (Text.int64? param).elim (.error param) fun n => .ok (some ⟨test, n, loops, average⟩) := by
  rw [ofLine?, fields_eq_iff.2 h]
  dsimp only
  cases Text.int64? param <;> rfl

theorem ofLine?_of_not_isRow {line : Text} (h : ¬ IsRow line) : ofLine? line = .ok none := by
  unfold ofLine?
  split
  · rename_i hfields
    exact absurd (isRow_iff.2 ⟨_, _, _, _, fields_eq_iff.1 hfields⟩) h
  · rfl

theorem ofLine?_of_tells {line : Text} {s : Sample} (h : Tells line s) : ofLine? line = .ok (some s) := by
  obtain ⟨param, hfields, hinteger⟩ := h
  rw [ofLine?_of_fields hfields, Text.int64?_eq_some_iff.2 hinteger, Option.elim_some]

theorem ofLine?_of_misfit {line value : Text} (h : Misfit line value) : ofLine? line = .error value := by
  obtain ⟨⟨test, loops, average, hfields⟩, hinteger⟩ := h
  have hnone : Text.int64? value = none := by
    rw [Option.eq_none_iff_forall_not_mem]
    exact fun i hi => hinteger ⟨i, Text.int64?_eq_some_iff.1 hi⟩
  rw [ofLine?_of_fields hfields, hnone, Option.elim_none]

theorem line_cases (line : Text) :
    ¬ IsRow line ∨ IsRow line ∧ (∃ s, Tells line s) ∨ IsRow line ∧ ∃ value, Misfit line value := by
  by_cases h : IsRow line
  · right
    obtain ⟨test, param, loops, average, hfields⟩ := isRow_iff.1 h
    by_cases hinteger : ∃ i, Text.Signed param i ∧ Text.InInt64 i
    · obtain ⟨i, hi⟩ := hinteger
      exact .inl ⟨h, ⟨test, i, loops, average⟩, param, hfields, hi⟩
    · exact .inr ⟨h, param, ⟨test, loops, average, hfields⟩, hinteger⟩
  · exact .inl h

theorem Tells.isRow {line : Text} {s : Sample} (h : Tells line s) : IsRow line := by
  obtain ⟨param, hfields, -⟩ := h
  exact isRow_iff.2 ⟨_, _, _, _, hfields⟩

theorem isRow_of_fields_eq {l l' : Text} (h : fields l = fields l') : IsRow l ↔ IsRow l' := by
  have hlength := congrArg List.length h
  rw [length_fields, length_fields] at hlength
  unfold IsRow
  rw [Nat.succ.inj hlength]

theorem Tells.of_fields_eq {l l' : Text} {s : Sample} (hl : Tells l s) (h : fields l = fields l') :
    Tells l' s := by
  obtain ⟨param, hfields, hinteger⟩ := hl
  exact ⟨param, fields_eq_iff.1 (h ▸ fields_eq_iff.2 hfields), hinteger⟩

theorem fields_append {after : Text} (hblank : ∀ c ∈ after, Text.isBlank c = true) (htab : '\t' ∉ after)
    (l : Text) :
    fields (l ++ after) = fields l := by
  -- they are blanks at the end of the last field
  obtain ⟨ps, p, hsplit⟩ : ∃ ps p, Text.splitOn '\t' l = ps ++ [p] :=
    ⟨_, _, (List.dropLast_concat_getLast (Text.splitOn_ne_nil '\t' l)).symm⟩
  unfold fields
  rw [Text.splitOn_append_of_not_mem htab hsplit, hsplit, List.map_append,
    List.map_append, List.map_singleton, List.map_singleton, Text.trim_append p hblank]

/-! ## One line after another -/

theorem ofLines_of_forall₂ {lines : List Text} {ss : List Sample}
    (h : List.Forall₂ Tells (lines.filter IsRow) ss) (n : Nat) :
    ofLines n lines = .ok ss := by
  induction lines generalizing n ss with
  | nil =>
    cases h
    rfl
  | cons l lines ih =>
    by_cases hl : IsRow l
    · rw [filter_cons_of_isRow hl] at h
      obtain ⟨s, ss', hs, hrest, rfl⟩ := List.forall₂_cons_left_iff.1 h
      rw [ofLines, ofLine?_of_tells hs]
      dsimp only
      rw [ih hrest]
      rfl
    · rw [filter_cons_of_not_isRow hl] at h
      rw [ofLines, ofLine?_of_not_isRow hl]
      exact ih h (n + 1)

theorem ofLines_of_misfit {before after : List Text} {l value : Text}
    (hbefore : ∀ r ∈ before, IsRow r → ∃ s, Tells r s) (h : Misfit l value) (n : Nat) :
    ofLines n (before ++ l :: after) = .error (.param (n + before.length) value) := by
  induction before generalizing n with
  | nil => rw [List.nil_append, ofLines, ofLine?_of_misfit h]; rfl
  | cons r before ih =>
    have hrest := ih (fun r' hr' => hbefore r' (List.mem_cons_of_mem r hr')) (n + 1)
    have hnumber : n + 1 + before.length = n + (r :: before).length := by rw [List.length_cons]; omega
    rw [hnumber] at hrest
    rw [List.cons_append, ofLines]
    by_cases hr : IsRow r
    · obtain ⟨s, hs⟩ := hbefore r (List.mem_cons_self ..) hr
      rw [ofLine?_of_tells hs]
      dsimp only
      rw [hrest]
      rfl
    · rw [ofLine?_of_not_isRow hr]
      exact hrest

/-- All rows tell a sample, or there is a first that does not. -/
theorem lines_cases (lines : List Text) : (∃ ss, List.Forall₂ Tells (lines.filter IsRow) ss) ∨
    ∃ before l after value, lines = before ++ l :: after ∧
      (∀ r ∈ before, IsRow r → ∃ s, Tells r s) ∧ Misfit l value := by
  induction lines with
  | nil => exact .inl ⟨[], .nil⟩
  | cons l lines ih =>
    rcases line_cases l with hl | ⟨hl, hs⟩ | ⟨-, value, hvalue⟩
    · rw [filter_cons_of_not_isRow hl]
      refine ih.imp_right ?_
      rintro ⟨before, l', after, value, rfl, hbefore, hvalue⟩
      exact ⟨l :: before, l', after, value, rfl,
        List.forall_mem_cons.2 ⟨fun h => absurd h hl, hbefore⟩, hvalue⟩
    · rw [filter_cons_of_isRow hl]
      refine ih.imp ?_ ?_
      · rintro ⟨ss, hss⟩
        obtain ⟨s, hs⟩ := hs
        exact ⟨s :: ss, .cons hs hss⟩
      · rintro ⟨before, l', after, value, rfl, hbefore, hvalue⟩
        exact ⟨l :: before, l', after, value, rfl, List.forall_mem_cons.2 ⟨fun _ => hs, hbefore⟩, hvalue⟩
    · exact .inr ⟨[], l, lines, value, rfl, by simp, hvalue⟩

/-! ## Whole outputs -/

/-- What becomes of an output with these lines: the samples of its rows; or the first row that does
not fit, by its number and its parameter; or, without any row, the number of the lines. -/
inductive Verdict (lines : List Text) : Except BatchError (List Sample) → Prop
  | accepted {ss : List Sample} (hne : ss ≠ []) (h : List.Forall₂ Tells (lines.filter IsRow) ss) :
    Verdict lines (.ok ss)
  | misfit {before after : List Text} {l value : Text} (hlines : lines = before ++ l :: after)
    (hbefore : ∀ r ∈ before, IsRow r → ∃ s, Tells r s) (h : Misfit l value) :
    Verdict lines (.error (.param (before.length + 1) value))
  | noRecords (h : ∀ l ∈ lines, ¬ IsRow l) : Verdict lines (.error (.noRecords lines.length))

theorem Verdict.parseBatch_eq {output : Text} {r : Except BatchError (List Sample)}
    (h : Verdict (Text.lines output) r) :
    parseBatch output = r := by
  unfold parseBatch
  cases h with
  | accepted hne h =>
    rw [ofLines_of_forall₂ h]
    split
    · rename_i hnil
      cases hnil
      exact absurd rfl hne
    · rfl
  | misfit hlines hbefore h =>
    rw [hlines, ofLines_of_misfit hbefore h, Nat.add_comm]
  | noRecords h =>
    have hnone : List.Forall₂ Tells ((Text.lines output).filter IsRow) [] := by
      rw [List.filter_eq_nil_iff.2 fun l hl => by simpa using h l hl]
      exact .nil
    rw [ofLines_of_forall₂ hnone]

theorem exists_verdict (lines : List Text) : ∃ r, Verdict lines r := by
  rcases lines_cases lines with ⟨ss, hss⟩ | ⟨before, l, after, value, hlines, hbefore, hvalue⟩
  · by_cases hne : ss = []
    · subst hne
      have hnil := List.filter_eq_nil_iff.1 (List.forall₂_nil_right_iff.1 hss)
      exact ⟨_, .noRecords fun l hl => by simpa using hnil l hl⟩
    · exact ⟨_, .accepted hne hss⟩
  · exact ⟨_, .misfit hlines hbefore hvalue⟩

/-- **The grammar is that of the reader.** -/
theorem parseBatch_eq_iff {output : Text} {r : Except BatchError (List Sample)} :
    parseBatch output = r ↔ ∃ lines, Text.Lined output lines ∧ Verdict lines r := by
  constructor
  · rintro rfl
    obtain ⟨r, hr⟩ := exists_verdict (Text.lines output)
    rw [hr.parseBatch_eq]
    exact ⟨_, Text.lined_lines output, hr⟩
  · rintro ⟨lines, hlines, h⟩
    rw [← hlines.lines_eq] at h
    exact h.parseBatch_eq

theorem parseBatch_eq_ok_iff {output : Text} {ss : List Sample} :
    parseBatch output = .ok ss ↔ ss ≠ [] ∧ List.Forall₂ Tells ((Text.lines output).filter IsRow) ss := by
  rw [parseBatch_eq_iff]
  constructor
  · rintro ⟨lines, hlines, hverdict⟩
    rw [hlines.lines_eq]
    cases hverdict with
    | accepted hne h => exact ⟨hne, h⟩
  · rintro ⟨hne, h⟩
    exact ⟨_, Text.lined_lines output, .accepted hne h⟩

/-! ## Pieces between line feeds -/

theorem filter_isRow_cons_of_fields_eq {l p : Text} {lines pieces : List Text} (h : fields l = fields p)
    (hrest : (lines.filter IsRow).map fields = (pieces.filter IsRow).map fields) :
    ((l :: lines).filter IsRow).map fields = ((p :: pieces).filter IsRow).map fields := by
  by_cases hl : IsRow l
  · have hp := (isRow_of_fields_eq h).1 hl
    rw [filter_cons_of_isRow hl, filter_cons_of_isRow hp, List.map_cons,
      List.map_cons, h, hrest]
  · have hp := fun hp => hl ((isRow_of_fields_eq h).2 hp)
    rw [filter_cons_of_not_isRow hl, filter_cons_of_not_isRow hp, hrest]

/-- The line ends make no difference to the fields of the rows. -/
theorem fields_of_lined {output : Text} {lines : List Text} (h : Text.Lined output lines) :
    (lines.filter IsRow).map fields = ((Text.splitOn '\n' output).filter IsRow).map fields := by
  induction h with
  | nil => rfl
  | unended h hne => rw [Text.splitOn_of_not_mem h]
  | feed h hreturn _ ih =>
    rw [Text.splitOn_append_cons _ _ _ h]
    exact filter_isRow_cons_of_fields_eq rfl ih
  | @returnFeed l s ls h _ ih =>
    have hl : '\n' ∉ l ++ ['\r'] := by simp [h]
    have hs : l ++ '\r' :: '\n' :: s = (l ++ ['\r']) ++ '\n' :: s := by simp
    rw [hs, Text.splitOn_append_cons _ _ _ hl]
    exact filter_isRow_cons_of_fields_eq
      (fields_append (List.forall_mem_singleton.2 rfl) (by decide) l).symm ih

theorem forall₂_tells_of_fields_eq {rows rows' : List Text} {ss : List Sample}
    (h : List.Forall₂ Tells rows ss) (hfields : rows.map fields = rows'.map fields) :
    List.Forall₂ Tells rows' ss := by
  induction h generalizing rows' with
  | nil =>
    rw [List.map_nil, eq_comm, List.map_eq_nil_iff] at hfields
    rw [hfields]
    exact .nil
  | cons hs _ ih =>
    rw [List.map_cons, eq_comm, List.map_eq_cons_iff] at hfields
    obtain ⟨l', rows', rfl, hl', hrest⟩ := hfields
    exact .cons (hs.of_fields_eq hl'.symm) (ih hrest.symm)

/-- **Line feeds are enough.** The samples of an output are those of the rows among the pieces
between its line feeds. -/
theorem parseBatch_eq_ok_iff_pieces {output : Text} {ss : List Sample} :
    parseBatch output = .ok ss ↔ ss ≠ [] ∧
      List.Forall₂ Tells ((Text.splitOn '\n' output).filter IsRow) ss := by
  have hfields := fields_of_lined (Text.lined_lines output)
  rw [parseBatch_eq_ok_iff]
  exact and_congr_right fun _ =>
    ⟨fun h => forall₂_tells_of_fields_eq h hfields, fun h => forall₂_tells_of_fields_eq h hfields.symm⟩

/-! ## Which outputs are taken in -/

theorem exists_forall₂_tells_iff {rows : List Text} :
    (∃ ss, List.Forall₂ Tells rows ss) ↔ ∀ l ∈ rows, ∃ s, Tells l s := by
  induction rows with
  | nil => simp
  | cons l rows ih =>
    rw [List.forall_mem_cons, ← ih]
    constructor
    · rintro ⟨ss, h⟩
      obtain ⟨s, ss', hs, hrest, -⟩ := List.forall₂_cons_left_iff.1 h
      exact ⟨⟨s, hs⟩, ss', hrest⟩
    · rintro ⟨⟨s, hs⟩, ss, hrest⟩
      exact ⟨s :: ss, .cons hs hrest⟩

theorem exists_parseBatch_eq_ok_iff {output : Text} : (∃ ss, parseBatch output = .ok ss) ↔
    (∃ l ∈ Text.lines output, IsRow l) ∧ ∀ l ∈ Text.lines output, ∀ test param loops average,
      HasFields l [test, param, loops, average] → ∃ i, Text.Signed param i ∧ Text.InInt64 i := by
  simp only [parseBatch_eq_ok_iff]
  constructor
  · rintro ⟨ss, hne, h⟩
    constructor
    · obtain ⟨s, ss', rfl⟩ := List.exists_cons_of_ne_nil hne
      obtain ⟨l, rows, hl, -, hfilter⟩ := List.forall₂_cons_right_iff.1 h
      have hmem : l ∈ (Text.lines output).filter IsRow := hfilter ▸ List.mem_cons_self ..
      exact ⟨l, (List.mem_filter.1 hmem).1, hl.isRow⟩
    · intro l hl test param loops average hfields
      have hrow : IsRow l := isRow_iff.2 ⟨_, _, _, _, hfields⟩
      obtain ⟨s, param', hfields', hinteger⟩ :=
        exists_forall₂_tells_iff.1 ⟨ss, h⟩ l (List.mem_filter.2 ⟨hl, by simpa using hrow⟩)
      rw [← fields_eq_iff, fields_eq_iff.2 hfields] at hfields'
      cases hfields'
      exact ⟨s.param, hinteger⟩
  · rintro ⟨⟨l, hl, hrow⟩, h⟩
    have htells : ∀ l ∈ (Text.lines output).filter IsRow, ∃ s, Tells l s := by
      intro l hl
      rw [List.mem_filter, decide_eq_true_eq] at hl
      obtain ⟨test, param, loops, average, hfields⟩ := isRow_iff.1 hl.2
      obtain ⟨i, hi⟩ := h l hl.1 _ _ _ _ hfields
      exact ⟨⟨test, i, loops, average⟩, param, hfields, hi⟩
    obtain ⟨ss, hss⟩ := exists_forall₂_tells_iff.2 htells
    refine ⟨ss, ?_, hss⟩
    rintro rfl
    have hnil := List.filter_eq_nil_iff.1 (List.forall₂_nil_right_iff.1 hss) l hl
    exact absurd hrow (by simpa using hnil)

end TriBench.Sample
