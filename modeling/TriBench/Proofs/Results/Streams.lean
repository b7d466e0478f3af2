import TriBench.Proofs.Results.Records
import TriBench.Proofs.Sample.Grammar
import TriBench.Proofs.Text.Separators

/-!
# Streams of bytes

What an execution prints are bytes, and only its lines with three tabs are records. Main statement:
`other_lines_without_influence`, the lines between them may be any bytes at all.
-/

namespace TriBench

/-! ## Lines of bytes -/

namespace Sample

def joinLines (ls : List Bytes) : Bytes := [0x0A].intercalate ls

def IsByteRow (line : Bytes) : Prop := line.count 0x09 = 3

instance : DecidablePred IsByteRow := fun line => inferInstanceAs (Decidable (line.count 0x09 = 3))

theorem splitOn_feed_decode (bytes : Bytes) :
    Text.splitOn '\n' (Utf8.decode bytes) = (bytes.splitOn 0x0A).map Utf8.decode :=
  Utf8.splitOn_decode (b := 0x0A) (by decide) bytes

theorem splitOn_tab_decode (bytes : Bytes) :
    Text.splitOn '\t' (Utf8.decode bytes) = (bytes.splitOn 0x09).map Utf8.decode :=
  Utf8.splitOn_decode (b := 0x09) (by decide) bytes

theorem isRow_decode_iff (line : Bytes) : IsRow (Utf8.decode line) ↔ IsByteRow line := by
  have hcount : (Utf8.decode line).count '\t' = line.count 0x09 :=
    Utf8.count_decode (b := 0x09) (by decide) line
  rw [IsRow, IsByteRow, hcount]

theorem filter_isRow_map_decode (ls : List Bytes) :
    (ls.map Utf8.decode).filter IsRow = (ls.filter IsByteRow).map Utf8.decode := by
  rw [List.filter_map]
  congr 2
  funext line
  exact decide_eq_decide.2 (isRow_decode_iff line)

/-- The rows of a stream are those of its lines that are rows. -/
theorem rows_joinLines {ls : List Bytes} (h : ∀ l ∈ ls, 0x0A ∉ l) :
    (Text.splitOn '\n' (Utf8.decode (joinLines ls))).filter IsRow =
      (ls.filter IsByteRow).map Utf8.decode := by
  by_cases hne : ls = []
  · subst hne
    rfl
  · rw [splitOn_feed_decode, joinLines, List.splitOn_intercalate _ h hne, filter_isRow_map_decode]

theorem parseBatch_joinLines_iff {ls : List Bytes} (h : ∀ l ∈ ls, 0x0A ∉ l) (ss : List Sample) :
    parseBatch (Utf8.decode (joinLines ls)) = .ok ss ↔
      parseBatch (Utf8.decode (joinLines (ls.filter IsByteRow))) = .ok ss := by
  have hrows : ∀ l ∈ ls.filter IsByteRow, 0x0A ∉ l := fun l hl => h l (List.mem_filter.1 hl).1
  rw [parseBatch_eq_ok_iff_pieces, parseBatch_eq_ok_iff_pieces, rows_joinLines h,
    rows_joinLines hrows, List.filter_filter]
  simp only [Bool.and_self]

end Sample

/-! ## What gets into the table -/

namespace Results

theorem absorb_eq_ok_iff {t t' : Results} {p : Platform} {output : Text} {n : Nat} :
    t.absorb p output = .ok (t', n) ↔
    ∃ ss, Sample.parseBatch output = .ok ss ∧ t' = ss.foldl (putSample p) t ∧ n = ss.length := by
  cases h : Sample.parseBatch output with
  | error e => simp [absorb_of_error t p h]
  | ok ss =>
    rw [absorb_of_ok t p h]
    simp only [Except.ok.injEq, Prod.mk.injEq, exists_eq_left', eq_comm]

theorem accepted_congr {output output' : Text}
    (h : ∀ ss, Sample.parseBatch output = .ok ss ↔ Sample.parseBatch output' = .ok ss) :
    accepted output = accepted output' := by
  cases hread : Sample.parseBatch output with
  | ok ss => rw [accepted_of_ok hread, accepted_of_ok ((h ss).1 hread)]
  | error e =>
    cases hread' : Sample.parseBatch output' with
    | ok ss =>
      rw [(h ss).2 hread'] at hread
      cases hread
    | error e' => rw [accepted_of_error hread, accepted_of_error hread']

/-- **Other lines have no influence.** A stream is taken in if the stream of its rows alone is, with
the same number of samples, and the table after it is the same, also when it is rejected; for what
stands between line feeds and between tabs is decoded each by itself, whether it is UTF-8 or not. -/
theorem other_lines_without_influence (t : Results) (p : Platform) (ls : List Bytes)
    (h : ∀ l ∈ ls, 0x0A ∉ l) :
    let whole := Utf8.decode (Sample.joinLines ls)
    let rows := Utf8.decode (Sample.joinLines (ls.filter fun l => l.count 0x09 = 3))
    (∀ t' n, t.absorb p whole = .ok (t', n) ↔ t.absorb p rows = .ok (t', n)) ∧
      t.after p whole = t.after p rows ∧
      ∀ bytes, Text.splitOn '\n' (Utf8.decode bytes) = (bytes.splitOn 0x0A).map Utf8.decode ∧
        Text.splitOn '\t' (Utf8.decode bytes) = (bytes.splitOn 0x09).map Utf8.decode := by
  intro whole rows
  have hread : ∀ ss, Sample.parseBatch whole = .ok ss ↔ Sample.parseBatch rows = .ok ss :=
    Sample.parseBatch_joinLines_iff h
  refine ⟨fun t' n => ?_, ?_, fun bytes =>
    ⟨Sample.splitOn_feed_decode bytes, Sample.splitOn_tab_decode bytes⟩⟩
  · simp only [absorb_eq_ok_iff, hread]
  · rw [after_eq, after_eq, accepted_congr hread]

/-- Characters that break off before a line feed and before a tab. -/
theorem other_lines_without_influence_truncated :
    let row : Bytes := [0x61, 0x09, 0x31, 0x09, 0x32, 0x09, 0x33]
    let ls : List Bytes := [[0xE2, 0x82], row, [0xF0, 0x9F, 0x09, 0xC3, 0xFF]]
    (∀ l ∈ ls, 0x0A ∉ l) ∧
      empty.absorb .lind (Utf8.decode (Sample.joinLines ls)) =
        .ok (putSample .lind empty ⟨"a", 1, "2", "3"⟩, 1) := by
  intro row ls
  have hls : ∀ l ∈ ls, 0x0A ∉ l := by decide
  have hrow : empty.absorb .lind (Utf8.decode (Sample.joinLines [row])) =
    .ok (putSample .lind empty ⟨"a", 1, "2", "3"⟩, 1) := by rfl
  exact ⟨hls, ((other_lines_without_influence empty .lind ls hls).1 _ 1).2 hrow⟩

end Results

end TriBench
