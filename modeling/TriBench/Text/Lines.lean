import TriBench.Text.Basic

/-!
# Lines

A line ends with a line feed or with the text. A carriage return just before the line feed belongs
to the line end; one at the end of the text does not. A text that ends with a line feed has no
empty line after it.
-/

namespace TriBench.Text

def dropReturn (s : Text) : Text := if s.getLast? = some '\r' then s.dropLast else s

/-- The pieces that a line feed ended, and then the open one, if it holds anything. -/
def lines (s : Text) : List Text :=
  let pieces := splitOn '\n' s
  pieces.dropLast.map dropReturn ++ pieces.getLast?.toList.filter (· ≠ [])

theorem lines_nil : lines [] = [] := rfl

theorem splitOn_append_cons (d : Char) (a b : Text) (h : d ∉ a) :
    splitOn d (a ++ d :: b) = a :: splitOn d b := by
  induction a with
  | nil => simp [splitOn]
  | cons c r ih =>
    simp only [List.mem_cons, not_or] at h
    simp [splitOn, Ne.symm h.1, ih h.2, consHead]

theorem lines_append_lf (a b : Text) (h : '\n' ∉ a) :
    lines (a ++ '\n' :: b) = dropReturn a :: lines b := by
  have hne := splitOn_ne_nil '\n' b
  cases hs : splitOn '\n' b with
  | nil => exact absurd hs hne
  | cons p ps => simp [lines, splitOn_append_cons _ _ _ h, hs]

end TriBench.Text
