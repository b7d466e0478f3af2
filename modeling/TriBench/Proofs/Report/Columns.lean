import Mathlib.Data.List.Forall2
import TriBench.Report.Console
import TriBench.Proofs.Text.Lines

/-!
# Columns of the console report

A reader of the report knows its columns by the runs of dashes below the header. Main statement:
`dashes_below_header`, a run has as many dashes as the longest cell has bytes, which is the number
of its characters only if they are all of one byte.
-/

namespace TriBench

namespace Text

theorem length_le_byteLength (s : Text) : s.length ≤ byteLength s := by
  induction s with
  | nil => exact Nat.le_refl 0
  | cons c s ih =>
    have hc := Char.utf8Size_pos c
    show s.length + 1 ≤ c.utf8Size + byteLength s
    omega

theorem length_eq_byteLength_iff (s : Text) : s.length = byteLength s ↔ ∀ c ∈ s, c.toNat < 0x80 := by
  induction s with
  | nil => simp [byteLength]
  | cons c s ih =>
    have hc := Char.utf8Size_pos c
    have hs := length_le_byteLength s
    have hone : c.utf8Size = 1 ↔ c.toNat < 0x80 := by
      rw [Char.utf8Size_eq_one_iff, UInt32.le_iff_toNat_le]
      exact Nat.lt_succ_iff.symm
    rw [List.forall_mem_cons, ← ih, ← hone]
    show s.length + 1 = c.utf8Size + byteLength s ↔ _
    omega

def unpadded (s : Text) : Text := (s.reverse.dropWhile (· = ' ')).reverse

theorem unpadded_append_blanks {s : Text} (h : s.getLast? ≠ some ' ') (n : Nat) :
    unpadded (s ++ List.replicate n ' ') = s := by
  have hblanks : ∀ c ∈ List.replicate n ' ', decide (c = ' ') = true := by
    intro c hc
    simp [List.eq_of_mem_replicate hc]
  rw [unpadded, List.reverse_append, List.reverse_replicate, List.dropWhile_append_of_pos hblanks]
  cases hs : s.reverse with
  | nil => simp [List.reverse_eq_nil_iff.1 hs]
  | cons c r =>
    have hc : c ≠ ' ' := by
      intro hc
      apply h
      rw [← List.head?_reverse, hs, hc]
      rfl
    rw [List.dropWhile_cons_of_neg (by simp [hc]), ← hs, List.reverse_reverse]

end Text

namespace Report

/-! ## The widths -/

section
variable {rows : List (List Text)} {i : Nat}

def cellIn (i : Nat) (row : List Text) : Text := (row[i]?).getD []

theorem cellIn_of_lt {row : List Text} (h : i < row.length) : cellIn i row = row[i] := by
  rw [cellIn, List.getElem?_eq_getElem h, Option.getD_some]

theorem getElem?_foldl_widths {ws : List Nat} {w : Nat} (hw : ws[i]? = some w)
    (hrows : ∀ row ∈ rows, i < row.length) :
    (rows.foldl (fun ws row => List.zipWith (fun w c => max w (Text.byteLength c)) ws row) ws)[i]? =
      some ((rows.map fun row => Text.byteLength (cellIn i row)).foldl max w) := by
  induction rows generalizing ws w with
  | nil => exact hw
  | cons row rows ih =>
    rw [List.forall_mem_cons] at hrows
    obtain ⟨hrow, hrows⟩ := hrows
    rw [List.foldl_cons, List.map_cons, List.foldl_cons]
    apply ih _ hrows
    rw [List.getElem?_zipWith, hw, List.getElem?_eq_getElem hrow, cellIn_of_lt hrow]

def columnOf (rows : List (List Text)) (i : Nat) : List Text := (headers :: rows).map (cellIn i)

theorem getElem?_widths (hi : i < headers.length) (hrows : ∀ row ∈ rows, row.length = headers.length) :
    (widths rows)[i]? = ((columnOf rows i).map Text.byteLength).max? := by
  have hheader : (headers.map Text.byteLength)[i]? = some (Text.byteLength (cellIn i headers)) := by
    rw [List.getElem?_map, List.getElem?_eq_getElem hi, cellIn_of_lt hi, Option.map_some]
  have hlong : ∀ row ∈ rows, i < row.length := fun row hrow => by rw [hrows row hrow]; exact hi
  rw [widths, getElem?_foldl_widths hheader hlong, columnOf, List.map_cons, List.map_cons,
    List.max?_cons', List.map_map]
  rfl

theorem length_widths (hrows : ∀ row ∈ rows, row.length = headers.length) :
    (widths rows).length = headers.length := by
  have hfold : ∀ ws : List Nat, ws.length = headers.length →
      (rows.foldl (fun ws row => List.zipWith (fun w c => max w (Text.byteLength c)) ws row) ws).length =
        headers.length := by
    induction rows with
    | nil => exact fun ws hws => hws
    | cons row rows ih =>
      intro ws hws
      rw [List.forall_mem_cons] at hrows
      apply ih hrows.2
      rw [List.length_zipWith, hws, hrows.1, Nat.min_self]
  exact hfold _ (List.length_map _)

theorem fits_widths (hrows : ∀ row ∈ rows, row.length = headers.length) {row : List Text}
    (hrow : row ∈ headers :: rows) :
    List.Forall₂ (fun c w => c.length ≤ w) row (widths rows) := by
  have hlength : row.length = headers.length := by
    rcases List.mem_cons.1 hrow with rfl | hrow
    · rfl
    · exact hrows row hrow
  rw [List.forall₂_iff_get]
  refine ⟨by rw [hlength, length_widths hrows], fun i hi hi' => ?_⟩
  have hmax := getElem?_widths (hlength ▸ hi) hrows
  rw [List.getElem?_eq_getElem hi', eq_comm, List.max?_eq_some_iff] at hmax
  have hcell : cellIn i row = row.get ⟨i, hi⟩ := cellIn_of_lt hi
  have hmem : Text.byteLength (row.get ⟨i, hi⟩) ∈ (columnOf rows i).map Text.byteLength := by
    rw [← hcell]
    exact List.mem_map_of_mem (List.mem_map_of_mem hrow)
  exact Nat.le_trans (Text.length_le_byteLength _) (hmax.2 _ hmem)

theorem pos_of_fits {cs : List Text} {ws : List Nat} (h : List.Forall₂ (fun c w => c.length ≤ w) cs ws)
    (hcs : ∀ c ∈ cs, 0 < c.length) : ∀ w ∈ ws, 0 < w := by
  induction h with
  | nil => exact List.forall_mem_nil _
  | cons hle _ ih =>
    rw [List.forall_mem_cons] at hcs ⊢
    exact ⟨Nat.lt_of_lt_of_le hcs.1 hle, ih hcs.2⟩

theorem widths_pos (hrows : ∀ row ∈ rows, row.length = headers.length) : ∀ w ∈ widths rows, 0 < w := by
  apply pos_of_fits (fits_widths hrows (List.mem_cons_self ..))
  decide

end

/-! ## Reading the rule -/

/-- Where the pieces that hold anything start, if blanks keep them apart, and how long they are. -/
def spans (start : Nat) : List Text → List (Nat × Nat)
  | [] => []
  | p :: ps => if p = [] then spans (start + 1) ps else (start, p.length) :: spans (start + p.length + 1) ps

def runs (rule : Text) : List (Nat × Nat) := spans 0 (Text.splitOn ' ' rule)

def offsets (start : Nat) : List Nat → List Nat
  | [] => []
  | w :: ws => start :: offsets (start + w + gutter.length) ws

def dashes (ws : List Nat) : Text := Text.joinWith gutter (ws.map fun w => List.replicate w '-')

theorem splitOn_run (w : Nat) : Text.splitOn ' ' (List.replicate w '-') = [List.replicate w '-'] := by
  apply Text.splitOn_of_not_mem
  intro h
  exact absurd (List.eq_of_mem_replicate h) (by decide)

theorem spans_dashes {ws : List Nat} (hws : ∀ w ∈ ws, 0 < w) (start : Nat) :
    spans start (Text.splitOn ' ' (dashes ws)) = (offsets start ws).zip ws := by
  induction ws generalizing start with
  | nil => rfl
  | cons w ws ih =>
    rw [List.forall_mem_cons] at hws
    obtain ⟨hw, hws⟩ := hws
    have hrun : List.replicate w '-' ≠ [] := by simp [Nat.ne_of_gt hw]
    cases ws with
    | nil =>
      have hone : dashes [w] = List.replicate w '-' := by simp [dashes, Text.joinWith]
      rw [hone, splitOn_run, spans, if_neg hrun, List.length_replicate]
      rfl
    | cons w' ws =>
      have hcut : Text.splitOn ' ' (dashes (w :: w' :: ws)) =
          List.replicate w '-' :: [] :: Text.splitOn ' ' (dashes (w' :: ws)) := by
        have hdashes : dashes (w :: w' :: ws) =
            List.replicate w '-' ++ ' ' :: ([] ++ ' ' :: dashes (w' :: ws)) := by
          unfold dashes
          rw [List.map_cons, List.map_cons, Text.joinWith_cons_cons]
          simp [gutter]
        rw [hdashes, Text.splitOn_append, Text.splitOn_append, splitOn_run]
        rfl
      have hrest := ih hws (start + w + gutter.length)
      rw [hcut, spans, if_neg hrun, List.length_replicate, spans, if_pos rfl]
      show (start, w) :: spans (start + w + gutter.length) _ =
          (start, w) :: (offsets (start + w + gutter.length) _).zip _
      rw [hrest]

theorem runs_dashes {ws : List Nat} (hws : ∀ w ∈ ws, 0 < w) :
    runs (dashes ws) = (offsets 0 ws).zip ws := spans_dashes hws 0

theorem length_offsets (start : Nat) (ws : List Nat) : (offsets start ws).length = ws.length := by
  induction ws generalizing start with
  | nil => rfl
  | cons w ws ih => exact congrArg (· + 1) (ih _)

theorem map_fst_runs {ws : List Nat} (hws : ∀ w ∈ ws, 0 < w) :
    (runs (dashes ws)).map Prod.fst = offsets 0 ws := by
  rw [runs_dashes hws, List.map_fst_zip (Nat.le_of_eq (length_offsets 0 ws))]

theorem map_snd_runs {ws : List Nat} (hws : ∀ w ∈ ws, 0 < w) : (runs (dashes ws)).map Prod.snd = ws := by
  rw [runs_dashes hws, List.map_snd_zip (Nat.le_of_eq (length_offsets 0 ws).symm)]

/-! ## Cutting lines -/

def cutAt : List Nat → Text → List Text
  | [], _ => []
  | [i], s => [s.drop i]
  | i :: j :: is, s => (s.drop i).take (j - i) :: cutAt (j :: is) s

def readLine (rule l : Text) : List Text := (cutAt ((runs rule).map Prod.fst) l).map Text.unpadded

def rowText (ws : List Nat) (cs : List Text) : Text :=
  Text.joinWith gutter (List.zipWith (fun c w => Text.padRight w c) cs ws)

theorem cutAt_rowText {cs : List Text} {ws : List Nat} (hfits : List.Forall₂ (fun c w => c.length ≤ w) cs ws)
    (hcs : ∀ c ∈ cs, c.getLast? ≠ some ' ') (before : Text) :
    (cutAt (offsets before.length ws) (before ++ rowText ws cs)).map Text.unpadded = cs := by
  induction hfits generalizing before with
  | nil => rfl
  | @cons c w cs ws hle hrest ih =>
    rw [List.forall_mem_cons] at hcs
    obtain ⟨hc, hcs⟩ := hcs
    cases hrest with
    | nil =>
      have hone : rowText [w] [c] = c ++ List.replicate (w - c.length) ' ' := by
        simp [rowText, Text.joinWith, Text.padRight]
      show [Text.unpadded ((before ++ rowText [w] [c]).drop before.length)] = [c]
      rw [List.drop_left, hone, Text.unpadded_append_blanks hc]
    | @cons c' w' cs ws hle' hrest =>
      have htext : rowText (w :: w' :: ws) (c :: c' :: cs) =
          Text.padRight w c ++ gutter ++ rowText (w' :: ws) (c' :: cs) := by
        unfold rowText
        rw [List.zipWith_cons_cons, List.zipWith_cons_cons, Text.joinWith_cons_cons]
      have hlength : (Text.padRight w c ++ gutter).length = w + gutter.length := by
        rw [List.length_append, Text.length_padRight hle]
      have hblanks : Text.padRight w c ++ gutter = c ++ List.replicate (w - c.length + 2) ' ' := by
        rw [Text.padRight, List.append_assoc, List.replicate_add]
        rfl
      -- the rest of the line comes after this cell, its padding and the gutter
      have hnext := ih hcs (before ++ (Text.padRight w c ++ gutter))
      rw [List.length_append, hlength, ← Nat.add_assoc, List.append_assoc] at hnext
      have hpiece : ((before ++
          (Text.padRight w c ++ gutter ++ rowText (w' :: ws) (c' :: cs))).drop before.length).take
          (before.length + w + gutter.length - before.length) = Text.padRight w c ++ gutter := by
        rw [List.drop_left, Nat.add_assoc, Nat.add_sub_cancel_left, ← hlength, List.take_left]
      rw [htext]
      show Text.unpadded _ ::
          (cutAt (offsets (before.length + w + gutter.length) (w' :: ws)) _).map Text.unpadded = _
      rw [hpiece, hnext, hblanks, Text.unpadded_append_blanks hc]

/-! ## Bytes and characters -/

def cellRows (t : Results) : List (List Text) := t.rows.map fun r => cells r.1 r.2.1 r.2.2

theorem length_of_mem_cellRows {t : Results} {row : List Text} (h : row ∈ cellRows t) :
    row.length = headers.length := by
  obtain ⟨r, -, rfl⟩ := List.mem_map.1 h
  rfl

theorem line_eq (ws : List Nat) (cs : List Text) : line ws cs = rowText ws cs ++ ['\n'] := rfl

theorem rule_eq (ws : List Nat) : rule ws = dashes ws ++ ['\n'] := rfl

theorem not_mem_rowText {ws : List Nat} {cs : List Text} (h : ∀ c ∈ cs, '\n' ∉ c) : '\n' ∉ rowText ws cs := by
  intro hmem
  rcases Text.mem_joinWith hmem with hmem | ⟨p, hp, hmem⟩
  · exact absurd hmem (by decide)
  · obtain ⟨i, hi, rfl⟩ := List.getElem_of_mem hp
    rw [List.getElem_zipWith, Text.padRight, List.mem_append] at hmem
    rcases hmem with hmem | hmem
    · exact h _ (List.getElem_mem _) hmem
    · exact absurd (List.eq_of_mem_replicate hmem) (by decide)

theorem mem_dashes {ws : List Nat} {c : Char} (h : c ∈ dashes ws) : c = '-' ∨ c = ' ' := by
  rcases Text.mem_joinWith h with h | ⟨p, hp, h⟩
  · exact .inr (by simpa [gutter] using h)
  · obtain ⟨w, -, rfl⟩ := List.mem_map.1 hp
    exact .inl (List.eq_of_mem_replicate h)

theorem not_mem_dashes (ws : List Nat) : '\n' ∉ dashes ws := by
  intro h
  rcases mem_dashes h with h | h <;> exact absurd h (by decide)

theorem console_eq (t : Results) : console t = Text.ofLines (rowText (widths (cellRows t)) headers ::
    dashes (widths (cellRows t)) :: (cellRows t).map (rowText (widths (cellRows t)))) := by
  show line _ headers ++ rule _ ++ _ = _
  rw [line_eq, rule_eq]
  simp [Text.ofLines, cellRows, List.flatMap_map, line_eq]

/-- The rule is the second line, whatever the cells hold. -/
theorem getElem?_splitOn_console (t : Results) :
    (Text.splitOn '\n' (console t))[1]? = some (dashes (widths (cellRows t))) := by
  have hheaders : ∀ c ∈ headers, '\n' ∉ c := by decide
  have hconsole : ∀ l r ls, Text.ofLines (l :: r :: ls) = l ++ '\n' :: (r ++ '\n' :: Text.ofLines ls) := by
    intro l r ls
    simp [Text.ofLines]
  rw [console_eq, hconsole, Text.splitOn_append_cons _ _ _ (not_mem_rowText hheaders),
    Text.splitOn_append_cons _ _ _ (not_mem_dashes _)]
  rfl

section
variable {cs : List Text} {w : Nat} (h : (cs.map Text.byteLength).max? = some w)
include h

theorem length_le_of_max? : ∀ c ∈ cs, c.length ≤ w := by
  intro c hc
  rw [List.max?_eq_some_iff] at h
  exact Nat.le_trans (Text.length_le_byteLength c) (h.2 _ (List.mem_map_of_mem hc))

theorem max?_length_iff : (cs.map List.length).max? = some w ↔ ∃ c ∈ cs, c.length = w := by
  rw [List.max?_eq_some_iff, List.mem_map]
  apply and_iff_left
  intro n hn
  obtain ⟨c, hc, rfl⟩ := List.mem_map.1 hn
  exact length_le_of_max? h c hc

theorem exists_length_eq_iff :
    (∃ c ∈ cs, c.length = w) ↔ ∃ c ∈ cs, Text.byteLength c = w ∧ ∀ x ∈ c, x.toNat < 0x80 := by
  simp only [← Text.length_eq_byteLength_iff]
  constructor
  · rintro ⟨c, hc, hw⟩
    rw [List.max?_eq_some_iff] at h
    have hle := Text.length_le_byteLength c
    have hge := h.2 _ (List.mem_map_of_mem hc)
    exact ⟨c, hc, by omega, by omega⟩
  · rintro ⟨c, hc, hw, heq⟩
    exact ⟨c, hc, heq.trans hw⟩

end

/-- **Dashes below the header.** Below each header are as many dashes as the longest cell of the
column has bytes, the header among them. They are as many as the longest cell has characters, and
some line needs no padding there, iff one of the cells with most bytes has none but ASCII
characters. -/
theorem dashes_below_header (t : Results) : ∃ rule, (Text.splitOn '\n' (console t))[1]? = some rule ∧
    (runs rule).length = headers.length ∧ ∀ i < headers.length, ∃ w, ((runs rule)[i]?).map Prod.snd = some w ∧
      ((columnOf (cellRows t) i).map Text.byteLength).max? = some w ∧
      (((columnOf (cellRows t) i).map List.length).max? = some w ↔
        ∃ c ∈ columnOf (cellRows t) i, c.length = w) ∧
      ((∃ c ∈ columnOf (cellRows t) i, c.length = w) ↔
        ∃ c ∈ columnOf (cellRows t) i, Text.byteLength c = w ∧ ∀ x ∈ c, x.toNat < 0x80) := by
  have hrows : ∀ row ∈ cellRows t, row.length = headers.length := fun row => length_of_mem_cellRows
  have hsnd := map_snd_runs (widths_pos hrows)
  have hlength := congrArg List.length hsnd
  rw [List.length_map, length_widths hrows] at hlength
  refine ⟨_, getElem?_splitOn_console t, hlength, fun i hi => ?_⟩
  have hi' : i < (widths (cellRows t)).length := by rw [length_widths hrows]; exact hi
  have hw : (widths (cellRows t))[i]? = some ((widths (cellRows t))[i]) := List.getElem?_eq_getElem hi'
  have hmax := (getElem?_widths hi hrows).symm.trans hw
  refine ⟨_, ?_, hmax, max?_length_iff hmax, exists_length_eq_iff hmax⟩
  rw [← List.getElem?_map, hsnd, hw]

/-- A test with four characters of two bytes each. -/
theorem eight_dashes_below_four_characters :
    let t : Results := Results.putSample .lind .empty ⟨"éééé", 1, "2", "3"⟩
    Results.empty.absorb .lind "éééé\t1\t2\t3" = .ok (t, 1) ∧
      (∃ rule, (Text.splitOn '\n' (console t))[1]? = some rule ∧ (runs rule)[0]? = some (0, 8)) ∧
      columnOf (cellRows t) 0 = ["TEST", "éééé"] ∧
      ((columnOf (cellRows t) 0).map List.length).max? = some 4 := by
  refine ⟨rfl, ⟨_, rfl, by decide⟩, by decide, by decide⟩

end Report

end TriBench
