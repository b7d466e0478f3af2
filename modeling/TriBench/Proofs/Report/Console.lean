import TriBench.Proofs.Report.Columns
import TriBench.Proofs.Report.Structured
import TriBench.Proofs.Results.History
import TriBench.Proofs.Sample.Wire

/-!
# The console report read back

A table that outputs have made holds no text that would break a line or look like padding, so its
report is read back cell by cell. Main statements: `fielded_ofHistory`, and `console_reads_back`.
-/

namespace TriBench

/-! ## What tables hold -/

def Measurement.IsField : Measurement → Prop
  | notMeasured => True
  | reported value => Sample.IsField value

structure Record.Fielded (r : Record) : Prop where
  columns : ∀ p, (r.column p).IsField
  loops : r.loops.IsField

theorem Record.fielded_blank : Record.blank.Fielded where
  columns p := by cases p <;> trivial
  loops := trivial

theorem Record.Fielded.set {r : Record} (h : r.Fielded) (p : Platform) {average loops : Measurement}
    (ha : average.IsField) (hl : loops.IsField) : (r.set p average loops).Fielded where
  columns q := by
    rw [Record.column_set]
    split
    · exact ha
    · exact h.columns q
  loops := by rwa [Record.loops_set]

namespace Results

def Fielded (t : Results) : Prop :=
  ∀ test param r, t.record? test param = some r → Sample.IsField test ∧ r.Fielded

theorem fielded_empty : empty.Fielded := by
  intro test param r h
  cases h

theorem Fielded.putSample {t : Results} (h : t.Fielded) (p : Platform) {s : Sample} (hs : s.IsSendable) :
    (Results.putSample p t s).Fielded := by
  intro test param r hr
  rw [record?_putSample] at hr
  split at hr
  · rename_i hat
    cases hr
    obtain ⟨rfl, rfl⟩ := of_decide_eq_true hat
    refine ⟨hs.test, Record.Fielded.set ?_ p hs.average hs.loops⟩
    cases hold : t.record? s.test s.param with
    | none => exact Record.fielded_blank
    | some r => exact (h _ _ _ hold).2
  · exact h _ _ _ hr

theorem isSendable_of_mem_accepted {output : Text} {s : Sample} (h : s ∈ accepted output) : s.IsSendable := by
  cases hread : Sample.parseBatch output with
  | error e =>
    rw [accepted_of_error hread] at h
    cases h
  | ok ss =>
    rw [accepted_of_ok hread] at h
    exact Sample.isSendable_of_parseBatch hread s h

theorem Fielded.after {t : Results} (h : t.Fielded) (p : Platform) (output : Text) :
    (t.after p output).Fielded := by
  have hss : ∀ s ∈ accepted output, s.IsSendable := fun s => isSendable_of_mem_accepted
  rw [after_eq]
  generalize accepted output = ss at hss
  induction ss generalizing t with
  | nil => exact h
  | cons s ss ih =>
    rw [List.forall_mem_cons] at hss
    exact ih (h.putSample p hss.1) hss.2

theorem fielded_ofHistory (ds : List Delivery) : (ofHistory ds).Fielded := by
  have hfrom : ∀ t : Results, t.Fielded → (ds.foldl (fun t d => t.after d.platform d.output) t).Fielded := by
    induction ds with
    | nil => exact fun t ht => ht
    | cons d ds ih => exact fun t ht => ih _ (ht.after d.platform d.output)
  exact hfrom empty fielded_empty

end Results

namespace Report

/-! ## What cells hold -/

structure IsCell (c : Text) : Prop where
  oneLine : '\n' ∉ c
  finish : c.getLast? ≠ some ' '

theorem isCell_of_isField {c : Text} (h : Sample.IsField c) : IsCell c where
  oneLine := h.noFeed
  finish hlast := absurd (h.trimmed.finish ' ' hlast) (by decide)

theorem isCell_cell {m : Measurement} (h : m.IsField) : IsCell (cell m) := by
  cases m with
  | notMeasured => exact ⟨by decide, by decide⟩
  | reported value => exact isCell_of_isField h

theorem noFeed_pointed (places n : Nat) : '\n' ∉ Decimal.pointed places n := by
  have hdigits : ∀ n, '\n' ∉ Text.ofNat n := Text.not_mem_ofNat (by decide)
  unfold Decimal.pointed
  split
  · exact hdigits n
  · intro h
    have hfilled : ∀ k, '\n' ∉ List.replicate k '0' ++ Text.ofNat n := by
      intro k h
      rcases List.mem_append.1 h with h | h
      · exact absurd (List.eq_of_mem_replicate h) (by decide)
      · exact hdigits n h
    rcases List.mem_append.1 h with h | h
    · exact hfilled _ (List.mem_of_mem_take h)
    · rcases List.mem_cons.1 h with h | h
      · exact absurd h (by decide)
      · exact hfilled _ (List.mem_of_mem_drop h)

theorem isCell_ratioCell {value : Measurement} (h : value.IsField) (base : Measurement) :
    IsCell (ratioCell value base) := by
  unfold ratioCell
  split
  · exact ⟨by decide, by decide⟩
  · rename_i hnegative
    split
    · cases value with
      | notMeasured => exact absurd (by decide) hnegative
      | reported value => exact isCell_of_isField h
    · have hvalue := (Sample.isField_ofInt value.integer).noFeed
      have hratio := noFeed_pointed 3
      constructor
      · simp only [List.mem_append, not_or]
        exact ⟨⟨⟨hvalue, by decide⟩, hratio _⟩, by decide⟩
      · have hlast : ∀ s : Text, (s ++ ([')'] : Text)).getLast? ≠ some ' ' := by
          intro s
          rw [List.getLast?_concat]
          decide
        exact hlast _

theorem isCell_of_mem_cells {test : Text} (htest : Sample.IsField test) (param : Int) {r : Record}
    (hr : r.Fielded) :
    ∀ c ∈ cells test param r, IsCell c := by
  intro c hc
  simp only [cells, List.mem_cons, List.not_mem_nil, or_false] at hc
  rcases hc with rfl | rfl | rfl | rfl | rfl | rfl
  · exact isCell_of_isField htest
  · exact isCell_of_isField (Sample.isField_ofInt param)
  · exact isCell_cell (hr.columns .linux)
  · exact isCell_ratioCell (hr.columns .lind) _
  · exact isCell_ratioCell (hr.columns .grate) _
  · exact isCell_cell hr.loops

/-! ## Lines -/

theorem isCell_of_mem_rows {t : Results} (ht : t.Fielded) {row : List Text}
    (hrow : row ∈ headers :: cellRows t) :
    ∀ c ∈ row, IsCell c := by
  rcases List.mem_cons.1 hrow with rfl | hrow
  · have hheaders : ∀ c ∈ headers, '\n' ∉ c ∧ c.getLast? ≠ some ' ' := by decide
    exact fun c hc => ⟨(hheaders c hc).1, (hheaders c hc).2⟩
  · obtain ⟨⟨test, param, r⟩, hr, rfl⟩ := List.mem_map.1 hrow
    obtain ⟨htest, hrecord⟩ := ht test param r ((Results.mem_rows_iff t test param r).1 hr)
    exact isCell_of_mem_cells htest param hrecord

theorem map_length_padded {cs : List Text} {ws : List Nat}
    (h : List.Forall₂ (fun c w => c.length ≤ w) cs ws) :
    (List.zipWith (fun c w => Text.padRight w c) cs ws).map List.length = ws := by
  induction h with
  | nil => rfl
  | cons hle _ ih => rw [List.zipWith_cons_cons, List.map_cons, Text.length_padRight hle, ih]

theorem length_rowText {cs : List Text} {ws : List Nat} (h : List.Forall₂ (fun c w => c.length ≤ w) cs ws) :
    (rowText ws cs).length = (dashes ws).length := by
  apply Text.length_joinWith_congr
  rw [map_length_padded h, List.map_map]
  simp [Function.comp_def]

/-! ## The same order in both reports -/

def keyPairs (v : Json) : List (Text × Text) := (v.members?.getD []).flatMap fun m => m.2.keys.map (m.1, ·)

theorem keyPairs_resultsValue (t : Results) :
    keyPairs (resultsValue t) = t.rows.map fun r => (r.1, Text.ofInt r.2.1) := by
  unfold keyPairs resultsValue Results.rows
  rw [Json.members?_ofMembers]
  simp [List.flatMap_map, List.map_flatMap, Function.comp_def]

theorem rows_ascending (t : Results) :
    t.rows.Pairwise fun a b => BytesBefore a.1 b.1 ∨ a.1 = b.1 ∧ a.2.1 < b.2.1 := by
  have hkeys := t.recordKeys_ascending
  rw [Results.recordKeys, List.pairwise_map] at hkeys
  exact hkeys.imp fun h => h.imp_left Text.toBytes_lt

/-- **The console report is read back.** It has a header, a rule and one line a record, all of the
same number of characters. Cut where runs of dashes start, and without the blanks at their ends, the
lines are the header and the cells of the records, each record once and in ascending order, as in
the structured report. -/
theorem console_reads_back (ds : List Delivery) :
    let t := Results.ofHistory ds
    ∃ header rule body, console t = Text.ofLines (header :: rule :: body) ∧ body.length = t.size ∧
      (∀ l ∈ header :: rule :: body, '\n' ∉ l ∧ l.length = rule.length) ∧ (∀ c ∈ rule, c = '-' ∨ c = ' ') ∧
      readLine rule header = headers ∧
      body.map (readLine rule) = t.rows.map (fun (test, param, r) =>
        [test, Text.ofInt param, cell r.linux, ratioCell r.lind r.linux,
          ratioCell r.grate r.linux, cell r.loops]) ∧
      (∀ test param r, (test, param, r) ∈ t.rows ↔ t.record? test param = some r) ∧
      t.rows.Pairwise (fun a b => BytesBefore a.1 b.1 ∨ a.1 = b.1 ∧ a.2.1 < b.2.1) ∧
      ∃ v, Json.parse? (structured t) = some v ∧
        keyPairs v = t.rows.map fun r => (r.1, Text.ofInt r.2.1) := by
  intro t
  have hrows : ∀ row ∈ cellRows t, row.length = headers.length := fun row => length_of_mem_cellRows
  have hcells := @isCell_of_mem_rows t (Results.fielded_ofHistory ds)
  have hread : ∀ row ∈ headers :: cellRows t,
      readLine (dashes (widths (cellRows t))) (rowText (widths (cellRows t)) row) = row := by
    intro row hrow
    have hcut := cutAt_rowText (fits_widths hrows hrow) (fun c hc => (hcells hrow c hc).finish) []
    rwa [readLine, map_fst_runs (widths_pos hrows)]
  have hline : ∀ row ∈ headers :: cellRows t, '\n' ∉ rowText (widths (cellRows t)) row ∧
      (rowText (widths (cellRows t)) row).length = (dashes (widths (cellRows t))).length := fun row hrow =>
    ⟨not_mem_rowText fun c hc => (hcells hrow c hc).oneLine, length_rowText (fits_widths hrows hrow)⟩
  refine ⟨_, _, _, console_eq t, ?_, ?_, fun c => mem_dashes,
    hread _ (List.mem_cons_self ..), ?_, t.mem_rows_iff,
    rows_ascending t, _, Json.parse?_pretty (isExact_resultsValue t), keyPairs_resultsValue t⟩
  · rw [List.length_map, cellRows, List.length_map, t.size_eq_length, Results.recordKeys, List.length_map]
  · rw [List.forall_mem_cons, List.forall_mem_cons, List.forall_mem_map]
    exact ⟨hline _ (List.mem_cons_self ..), ⟨not_mem_dashes _, rfl⟩,
      fun row hrow => hline row (List.mem_cons_of_mem _ hrow)⟩
  · rw [List.map_map]
    have hsame : (cellRows t).map (readLine (dashes (widths (cellRows t))) ∘ rowText (widths (cellRows t))) =
        cellRows t := by
      conv => rhs; rw [← List.map_id (cellRows t)]
      exact List.map_congr_left fun row hrow => hread row (List.mem_cons_of_mem _ hrow)
    rw [hsame]
    rfl

end Report

end TriBench
