import Mathlib.Algebra.Group.Nat.Defs
import TriBench.Proofs.Outcome.Output
import TriBench.Proofs.Text.Decimal
import TriBench.Proofs.Text.Styled

/-!
# Colours

Colours are all that codes say: what a terminal shows of an element or of the box is what is written
without colours. The lines of the box are equally wide for all counters of 64 bits. Main statement:
`colours_without_influence`.
-/

namespace TriBench

open Text (Shows shows_of_not_mem)

structure Failure.IsPlain (f : Failure) : Prop where
  message : Style.escape ∉ f.message
  diagnostics : ∀ d ∈ f.diagnostics, Style.escape ∉ d

instance (f : Failure) : Decidable f.IsPlain :=
  decidable_of_iff (Style.escape ∉ f.message ∧ ∀ d ∈ f.diagnostics, Style.escape ∉ d)
    ⟨fun ⟨h₁, h₂⟩ => ⟨h₁, h₂⟩, fun h => ⟨h.message, h.diagnostics⟩⟩

theorem Failure.IsPlain.line {f : Failure} (h : f.IsPlain) {line : Text} (hline : line ∈ f.outputLines) :
    Style.escape ∉ line := by
  rw [← f.lines_diagnostics] at hline
  have hsub := Text.subset_of_mem_lines hline
  cases hd : f.diagnostics with
  | none =>
    rw [hd] at hsub
    exact fun hmem => absurd (hsub hmem) List.not_mem_nil
  | some d =>
    rw [hd] at hsub
    exact fun hmem => h.diagnostics d hd (hsub hmem)

theorem Failure.Kind.plain_name (k : Failure.Kind) : Style.escape ∉ k.name := by
  cases k <;> decide

namespace Element

structure IsPlain (e : Element) : Prop where
  name : Style.escape ∉ e.name
  failures : ∀ f ∈ e.outcome.failures, f.IsPlain

variable (colours : Bool)

theorem shows_details (o : Outcome) : Shows (details colours o) (details false o) := by
  have hplatform : ∀ p : Platform, Style.escape ∉ p.name := by
    intro p
    cases p <;> decide
  have hnames : ∀ ps : List Platform,
      Style.escape ∉ '(' :: Text.joinWith ", " (ps.map Platform.name) ++ [')'] := by
    intro ps h
    have hedges : Style.escape ≠ '(' ∧ Style.escape ≠ ')' := by decide
    rw [List.cons_append, List.mem_cons, List.mem_append, List.mem_singleton] at h
    rcases h with h | h | h
    · exact hedges.1 h
    · rcases Text.mem_joinWith h with h | ⟨name, hname, h⟩
      · exact absurd h (by decide)
      · obtain ⟨p, -, rfl⟩ := List.mem_map.1 hname
        exact hplatform p h
    · exact hedges.2 h
  cases o with
  | skipped failures => exact fun _ => rfl
  | measured platforms => exact Style.shows_paintFilled colours _ (hnames platforms) (hnames platforms)
  | partly platforms failures => exact Style.shows_paintFilled colours _ (hnames platforms) (hnames platforms)

theorem shows_headline {e : Element} (h : Style.escape ∉ e.name) :
    Shows (e.headline colours) (e.headline false) := by
  have hlabel : Style.escape ∉ e.outcome.label.1 := by
    cases e.outcome <;> exact of_decide_eq_true rfl
  have hpadded := Text.not_mem_padLeft (by decide) hlabel labelWidth
  have hname := (shows_of_not_mem h).cons (c := ' ') (by decide)
  exact ((Style.shows_paintFilled colours _ hlabel hpadded).append hname).append
    ((shows_details colours e.outcome).cons (by decide))

theorem shows_indented {line : Text} (h : Style.escape ∉ line) :
    Shows (indented colours line) (indented false line) :=
  (shows_of_not_mem (by decide)).append (Style.shows_paintFilled colours _ h h)

theorem shows_failureText {f : Failure} (h : f.IsPlain) (verbose : Bool) :
    Shows (failureText colours verbose f) (failureText false verbose f) := by
  have hpadded := Text.not_mem_padLeft (by decide) f.kind.plain_name labelWidth
  have hkind :=
    (Style.shows_paintFilled colours (.plain .red) f.kind.plain_name hpadded).cons (c := '\n') (by decide)
  have hmessage := (shows_of_not_mem h.message).cons (c := ' ') (by decide)
  have hterse : Shows (failureText colours false f) (failureText false false f) :=
    (hkind.append hmessage).append fun _ => rfl
  cases verbose with
  | false => exact hterse
  | true =>
    rw [failureText_verbose, failureText_verbose]
    exact hterse.append (Shows.flatMap fun line hline => shows_indented colours (h.line hline))

theorem unstyled_text {e : Element} (h : e.IsPlain) (verbose : Bool) :
    (e.text true verbose).map Text.unstyled = e.text false verbose := by
  rw [text_eq, text_eq]
  by_cases hnone : e.outcome.grade = .measured ∧ verbose = false
  · rw [if_pos hnone, if_pos hnone]
    rfl
  · have hshown := (shows_headline true h.name).append
      (Shows.flatMap fun f hf => shows_failureText true (h.failures f hf) verbose)
    rw [if_neg hnone, if_neg hnone, Option.map_some, hshown.unstyled_eq]

end Element

namespace Tally

/-! ## The rows of the box -/

structure IsLabel (label : Text) : Prop where
  plain : Style.escape ∉ label
  oneLine : '\n' ∉ label
  narrow : label.length ≤ cellWidth

instance (label : Text) : Decidable (IsLabel label) :=
  decidable_of_iff (Style.escape ∉ label ∧ '\n' ∉ label ∧ label.length ≤ cellWidth)
    ⟨fun ⟨h₁, h₂, h₃⟩ => ⟨h₁, h₂, h₃⟩, fun h => ⟨h.plain, h.oneLine, h.narrow⟩⟩

theorem isLabel_ofNat {n : Nat} (h : n < 2 ^ 64) : IsLabel (Text.ofNat n) where
  plain := Text.not_mem_ofNat (by decide) n
  oneLine := Text.not_mem_ofNat (by decide) n
  narrow := (Nat.length_toDigits_le_iff (by decide) (by decide)).2 (Nat.lt_trans h (by decide))

section
variable (colours : Bool) (label : Text) (colour : Colour) (n : Nat)

def cells : Text :=
  Style.paintFilled colours (.plain colour) (Text.padRight cellWidth) label ++
    Style.paintFilled colours (.plain colour) (Text.padLeft cellWidth) (Text.ofNat n)

theorem row_eq :
    row colours label colour n = "║     " ++ cells colours label colour n ++ "     ║" ++ ['\n'] := by
  have hend : "     ║\n".toList = "     ║".toList ++ ['\n'] := by decide
  unfold row cells
  simp only [hend, List.append_assoc]

variable {label} (h : IsLabel label)
include h

theorem shows_cells : Shows (cells colours label colour n) (cells false label colour n) := by
  have hdigits := Text.not_mem_ofNat (c := Style.escape) (by decide) n
  exact (Style.shows_paintFilled colours _ h.plain
    (Text.not_mem_padRight (by decide) h.plain cellWidth)).append
    (Style.shows_paintFilled colours _ hdigits (Text.not_mem_padLeft (by decide) hdigits cellWidth))

theorem noFeed_cells : '\n' ∉ cells colours label colour n := by
  have hplain := Text.not_mem_ofNat (c := Style.escape) (by decide) n
  have hdigits := Text.not_mem_ofNat (c := '\n') (by decide) n
  unfold cells
  rw [List.mem_append, not_or]
  exact ⟨Style.noFeed_paintFilled colours _ h.plain (Text.not_mem_padRight (by decide) h.oneLine cellWidth),
    Style.noFeed_paintFilled colours _ hplain (Text.not_mem_padLeft (by decide) hdigits cellWidth)⟩

theorem length_cells (hn : n < 2 ^ 64) : (cells false label colour n).length = 2 * cellWidth := by
  have hname := Text.length_padRight h.narrow
  have hcount := Text.length_padLeft (isLabel_ofNat hn).narrow
  have hcells : (cells false label colour n).length =
      (Text.padRight cellWidth label).length + (Text.padLeft cellWidth (Text.ofNat n)).length :=
        List.length_append
  omega

theorem shows_edged :
    Shows ("║     " ++ cells colours label colour n ++ "     ║")
      ("║     " ++ cells false label colour n ++ "     ║") :=
  ((shows_of_not_mem (by decide)).append (shows_cells colours colour n h)).append
    (shows_of_not_mem (by decide))

theorem shows_row : Shows (row colours label colour n) (row false label colour n) := by
  rw [row_eq, row_eq]
  exact (shows_edged colours colour n h).append (shows_of_not_mem (by decide))

end

structure IsFramed (w : Nat) (s : Text) : Prop where
  ends : s.EndsLine
  width : ∀ l ∈ Text.lines s, (Text.unstyled l).length = w

instance (w : Nat) (s : Text) : Decidable (IsFramed w s) :=
  decidable_of_iff (s.EndsLine ∧ ∀ l ∈ Text.lines s, (Text.unstyled l).length = w)
    ⟨fun ⟨h₁, h₂⟩ => ⟨h₁, h₂⟩, fun h => ⟨h.ends, h.width⟩⟩

theorem IsFramed.append {w : Nat} {s t : Text} (hs : IsFramed w s) (ht : IsFramed w t) :
    IsFramed w (s ++ t) where
  ends := hs.ends.append ht.ends
  width := by
    rw [Text.lines_append hs.ends, List.forall_mem_append]
    exact ⟨hs.width, ht.width⟩

theorem isFramed_row (colours : Bool) {label : Text} (h : IsLabel label) (colour : Colour) {n : Nat}
    (hn : n < 2 ^ 64) :
    IsFramed 64 (row colours label colour n) := by
  rw [row_eq]
  have hshown := (shows_edged colours colour n h).unstyled_eq
  have hfeed : '\n' ∉ "║     ".toList ++ cells colours label colour n ++ "     ║" := by
    have hedges : '\n' ∉ "║     ".toList ∧ '\n' ∉ "     ║".toList := by decide
    rw [List.mem_append, List.mem_append, not_or, not_or]
    exact ⟨⟨hedges.1, noFeed_cells colours colour n h⟩, hedges.2⟩
  have hlast : ("║     ".toList ++ cells colours label colour n ++ "     ║").getLast? ≠ some '\r' := by
    rw [List.getLast?_append, Option.or_of_isSome (by decide)]
    decide
  refine ⟨.inr (List.getLast?_concat ..), ?_⟩
  rw [Text.lines_append_lf _ [] hfeed, Text.dropReturn_of_getLast? hlast, Text.lines_nil,
    List.forall_mem_singleton, hshown, List.length_append, List.length_append, length_cells colour n h hn]
  rfl

/-- What holds of the edges and the rows and goes over to texts next to each other holds of the box. -/
theorem box_rec (colours : Bool) (t : Tally) {P : Text → Text → Prop} (hnil : P [] [])
    (happend : ∀ {a a' b b'}, P a a' → P b b' → P (a ++ b) (a' ++ b'))
    (hedge : ∀ edge ∈ [topEdge, blankRow, bottomEdge], P edge edge)
    (hrow : ∀ label colour n, IsLabel label → (∃ g, n = t.count g) ∨ (∃ k, n = t.failures k) →
      P (row colours label colour n) (row false label colour n)) : P (t.box colours) (t.box false) := by
  have hblank := hedge blankRow (by simp)
  have hmeasured := hrow "MEASURED" .green t.measured (by decide) (.inl ⟨.measured, rfl⟩)
  have hpartly := hrow "PARTIAL" .yellow t.partly (by decide) (.inl ⟨.partly, rfl⟩)
  have hskipped := hrow "SKIPPED" .brightRed t.skipped (by decide) (.inl ⟨.skipped, rfl⟩)
  have hfailure : ∀ k, P (row colours (failureLabel k) .brightBlack (t.failures k))
      (row false (failureLabel k) .brightBlack (t.failures k)) := by
    intro k
    have hlabel : IsLabel (failureLabel k) := by cases k <;> decide
    exact hrow _ _ _ hlabel (.inr ⟨k, rfl⟩)
  have hfailures : ∀ ks : List Failure.Kind,
      P (ks.flatMap fun k => row colours (failureLabel k) .brightBlack (t.failures k))
      (ks.flatMap fun k => row false (failureLabel k) .brightBlack (t.failures k)) := by
    intro ks
    induction ks with
    | nil => exact hnil
    | cons k ks ih => exact happend (hfailure k) ih
  have houtcomes :=
    happend (happend (happend (happend (hedge topEdge (by simp)) hblank) hmeasured) hpartly) hskipped
  exact happend (happend (happend houtcomes hblank) (hfailures Failure.Kind.all)) (hedge bottomEdge (by simp))

set_option maxRecDepth 2000 in
theorem topEdge_eq :
    topEdge = '╔' :: List.replicate 19 '═' ++ "╡ BENCHMARK RUN ╞" ++ List.replicate 26 '═' ++ ['╗', '\n'] :=
  String.toList_ofList

theorem blankRow_eq : blankRow = '║' :: List.replicate 62 ' ' ++ ['║', '\n'] := String.toList_ofList

set_option maxRecDepth 2000 in
theorem bottomEdge_eq : bottomEdge = '╚' :: List.replicate 62 '═' ++ ['╝', '\n'] := String.toList_ofList

theorem shows_box (colours : Bool) (t : Tally) : Shows (t.box colours) (t.box false) := by
  have hedges : ∀ edge ∈ [topEdge, blankRow, bottomEdge], Style.escape ∉ edge := by
    rw [topEdge_eq, blankRow_eq, bottomEdge_eq]
    decide +kernel
  exact box_rec colours t (fun _ => rfl) Shows.append (fun edge hedge => shows_of_not_mem (hedges edge hedge))
    fun label colour n hlabel _ => shows_row colours colour n hlabel

structure Fits (t : Tally) : Prop where
  count : ∀ g, t.count g < 2 ^ 64
  failures : ∀ k, t.failures k < 2 ^ 64

theorem isFramed_box (colours : Bool) {t : Tally} (h : t.Fits) : IsFramed 64 (t.box colours) := by
  have hedges : ∀ edge ∈ [topEdge, blankRow, bottomEdge], IsFramed 64 edge := by
    rw [topEdge_eq, blankRow_eq, bottomEdge_eq]
    decide +kernel
  refine box_rec colours t (P := fun s _ => IsFramed 64 s)
    ⟨.inl rfl, by simp [Text.lines_nil]⟩ IsFramed.append hedges ?_
  rintro label colour n hlabel (⟨g, rfl⟩ | ⟨k, rfl⟩)
  · exact isFramed_row colours hlabel colour (h.count g)
  · exact isFramed_row colours hlabel colour (h.failures k)

end Tally

/-- **Colours change nothing in the text.** -/
theorem colours_without_influence {e : Element} (he : e.IsPlain) (t : Tally) (verbose quiet : Bool) :
    (e.text true verbose).map Text.unstyled = e.text false verbose ∧
    Text.unstyled (if quiet then [] else t.box true) = (if quiet then [] else t.box false) ∧
    (t.Fits → ∀ colours, ∀ l ∈ Text.lines (t.box colours), (Text.unstyled l).length = 64) := by
  refine ⟨e.unstyled_text he verbose, ?_, fun ht colours => (Tally.isFramed_box colours ht).width⟩
  cases quiet with
  | false => exact (Tally.shows_box true t).unstyled_eq
  | true => rfl

/-- An element with output to show, and a tally whose counters are as large as they can be. -/
theorem colours_without_influence_at_limits :
    let output : ToolOutput := ⟨Text.toBytes "done\n", Text.toBytes "\n  out of memory \n"⟩
    let e : Element :=
      ⟨"fs_read", .partly [.linux, .lind] [.execution (.tool .grate (.exit "lind" (some 134) output))]⟩
    let n := 2 ^ 64 - 1
    let t : Tally := ⟨[e], n, n, n, n, n, n, n⟩
    e.IsPlain ∧ (e.text true true).map Text.unstyled = e.text false true ∧
      ∀ colours, ∀ l ∈ Text.lines (t.box colours), (Text.unstyled l).length = 64 := by
  intro output e n t
  have he : e.IsPlain := ⟨by decide +kernel, by decide +kernel⟩
  have ht : t.Fits := ⟨fun g => by cases g <;> decide, fun k => by cases k <;> decide⟩
  obtain ⟨helement, -, hbox⟩ := colours_without_influence he t true false
  exact ⟨he, helement, hbox ht⟩

end TriBench
