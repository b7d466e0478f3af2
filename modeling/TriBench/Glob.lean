import TriBench.FileSystem.Basic

/-!
# Patterns for file names

A pattern is a path in which `?` stands for one character, `*` for any run of characters and
brackets for one of the characters in them. `escape` turns any text into a pattern for itself, and
leaves what follows it to be read on its own (`parse_escape_append`).
-/

namespace TriBench.Glob

inductive Token
  | exactly (c : Char)
  | anyChar
  | anyRun
  | oneOf (negated : Bool) (ranges : List (Char × Char))
  deriving DecidableEq, Repr

abbrev Pattern := List Token

inductive PatternError
  /-- More than one star in a row. -/
  | stars
  /-- A bracket that is not closed. -/
  | bracket
  deriving DecidableEq, Repr

def PatternError.message : PatternError → Text
  | stars => "wildcards are either a single `*` or a recursive one, which is not supported"
  | bracket => "invalid range pattern"

/-- Puts the characters with a meaning of their own into brackets. -/
def escape (s : Text) : Text :=
  s.flatMap fun c => if c = '?' ∨ c = '*' ∨ c = '[' ∨ c = ']' then ['[', c, ']'] else [c]

def rangesOf : Text → List (Char × Char)
  | a :: '-' :: b :: r => (a, b) :: rangesOf r
  | c :: r => (c, c) :: rangesOf r
  | [] => []

/-- Where the reader of a pattern stands: the body of a bracket is kept in reverse. -/
inductive Reading
  | outside
  | afterStar
  | opened
  | negated
  | inside (negated : Bool) (body : Text)

def parseFrom : Reading → Text → Except PatternError Pattern
  | .outside, [] => .ok []
  | .afterStar, [] => .ok []
  | _, [] => .error .bracket
  | .opened, c :: r => if c = '!' then parseFrom .negated r else parseFrom (.inside false [c]) r
  | .negated, c :: r => parseFrom (.inside true [c]) r
  | .inside negated body, c :: r =>
    if c = ']' then
      (parseFrom .outside r).map (.oneOf negated (rangesOf body.reverse) :: ·)
    else parseFrom (.inside negated (c :: body)) r
  | .afterStar, '*' :: _ => .error .stars
  | _, '*' :: r => (parseFrom .afterStar r).map (.anyRun :: ·)
  | _, '?' :: r => (parseFrom .outside r).map (.anyChar :: ·)
  | _, '[' :: r => parseFrom .opened r
  | _, c :: r => (parseFrom .outside r).map (.exactly c :: ·)

def parse (s : Text) : Except PatternError Pattern := parseFrom .outside s

def inRanges (ranges : List (Char × Char)) (c : Char) : Bool :=
  ranges.any fun r => r.1 ≤ c && c ≤ r.2

def endings : Text → List Text
  | [] => [[]]
  | c :: r => (c :: r) :: endings r

def fits : Pattern → Text → Bool
  | [], s => s.isEmpty
  | .exactly c :: p, d :: s => c = d && fits p s
  | .anyChar :: p, _ :: s => fits p s
  | .oneOf negated ranges :: p, d :: s => inRanges ranges d != negated && fits p s
  | .anyRun :: p, s => (endings s).any (fits p)
  | _ :: _, [] => false

def literal? : Pattern → Option Text
  | [] => some []
  | .exactly c :: p => (literal? p).map (c :: ·)
  | _ :: _ => none

/-- An entry of a directory; entries of the current one are named without it. -/
def child (directory : Path) (name : Text) : Path :=
  if directory.components = [.here] then ⟨name⟩ else directory.join ⟨name⟩

/-- The paths from `at` on that fit the patterns piece by piece. A piece without alternatives is not
looked up in its directory, so it may also be a dot, two dots or empty. -/
def expandFrom (fs : FileSystem) : Path → List Pattern → List Path
  | p, [] => [p]
  | p, pattern :: rest =>
    match literal? pattern with
    | some s =>
      let next := child p s
      let there := if s = ['.'] ∨ s = ['.', '.'] then fs.isDirectory p else fs.has next
      if there then expandFrom fs next rest else []
    | none =>
      if fs.isDirectory p then
        ((fs.namesIn p).filter (fits pattern)).flatMap (fun n => expandFrom fs (child p n) rest) ++
          if pattern.head? = some (.exactly '.') then
            [['.'], ['.', '.']].flatMap fun n =>
              if fits pattern n then expandFrom fs (p.join ⟨n⟩) rest else []
          else []
      else []

/-- The pieces of a pattern after its root; a slash at its end adds none. -/
def pieces (pattern : Text) : List Text :=
  let s := if pattern.head? = some '/' then pattern.tail else pattern
  let ps := Text.splitOn '/' s
  if ps.getLast? = some [] then ps.dropLast else ps

def expand (fs : FileSystem) (pattern : Text) : Except PatternError (List Path) :=
  (pieces pattern).mapM parse |>.map fun patterns =>
    expandFrom fs (if pattern.head? = some '/' then "/" else ".") patterns

theorem parse_escape_append (s t : Text) :
    parse (escape s ++ t) =
      (parse t).map ((s.map fun c =>
        if c = '?' ∨ c = '*' ∨ c = '[' ∨ c = ']' then .oneOf false [(c, c)] else .exactly c) ++ ·) := by
  induction s with
  | nil => cases h : parse t <;> simp [escape, Except.map, h]
  | cons c r ih =>
    have hc : escape (c :: r) =
        (if c = '?' ∨ c = '*' ∨ c = '[' ∨ c = ']' then ['[', c, ']'] else [c]) ++ escape r := by
      simp [escape]
    by_cases h : c = '?' ∨ c = '*' ∨ c = '[' ∨ c = ']'
    · have hne : c ≠ '!' := by rcases h with rfl | rfl | rfl | rfl <;> decide
      simp only [hc, h, if_true, List.cons_append, List.nil_append, parse, List.map_cons] at ih ⊢
      simp only [parseFrom, hne, if_false, if_true, List.reverse_cons, List.reverse_nil,
        List.nil_append, rangesOf, ih]
      cases parseFrom .outside t <;> simp [Except.map]
    · simp only [hc, h, if_false, List.cons_append, List.nil_append, parse, List.map_cons] at ih ⊢
      simp only [not_or] at h
      rw [parseFrom, ih]
      · cases parseFrom .outside t <;> simp [Except.map]
      all_goals simp_all

end TriBench.Glob
