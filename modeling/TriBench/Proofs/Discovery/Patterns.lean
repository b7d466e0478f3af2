import TriBench.Discovery
import TriBench.Proofs.Path.Pieces

/-!
# Patterns of escaped texts

An escaped text fits itself alone, and with a star after it all texts that start with it. Slashes
are not escaped, so the pieces of a pattern are those of the texts in it. Main statements:
`expand_pattern`, no pattern of a discovery is refused, and `expandFrom_exact`, what its pieces lead
to.
-/

namespace TriBench

namespace Glob

/-! ## What escaped texts fit -/

def tokens (s : Text) : Pattern :=
  s.map fun c => if c = '?' ∨ c = '*' ∨ c = '[' ∨ c = ']' then .oneOf false [(c, c)] else .exactly c

theorem parse_escape (s : Text) : parse (escape s) = .ok (tokens s) := by
  have h := parse_escape_append s []
  rw [List.append_nil] at h
  rw [h]
  simp [parse, parseFrom, Except.map, tokens]

theorem parse_escape_run (s : Text) : parse (escape s ++ ['*']) = .ok (tokens s ++ [.anyRun]) := by
  rw [parse_escape_append]
  simp [parse, parseFrom, Except.map, tokens]

theorem inRanges_singleton {c d : Char} : inRanges [(c, c)] d = true ↔ d = c := by
  simp only [inRanges, List.any_cons, List.any_nil, Bool.or_false, Bool.and_eq_true, decide_eq_true_eq]
  constructor
  · rintro ⟨h, h'⟩
    exact Char.le_antisymm h' h
  · rintro rfl
    exact ⟨Char.le_refl d, Char.le_refl d⟩

theorem fits_tokens_append (s : Text) (p : Pattern) (n : Text) :
    fits (tokens s ++ p) n = true ↔ ∃ m, n = s ++ m ∧ fits p m = true := by
  induction s generalizing n with
  | nil => simp [tokens]
  | cons c s ih =>
    cases n with
    | nil =>
      have hfalse : fits (tokens (c :: s) ++ p) [] = false := by
        unfold tokens
        rw [List.map_cons]
        split <;> rfl
      simp [hfalse]
    | cons d n =>
      have hstep : fits (tokens (c :: s) ++ p) (d :: n) = true ↔ d = c ∧ fits (tokens s ++ p) n = true := by
        unfold tokens
        rw [List.map_cons, List.cons_append]
        split
        · rw [fits, Bool.and_eq_true, bne_iff_ne, ne_eq, Bool.not_eq_false, inRanges_singleton]
        · rw [fits, Bool.and_eq_true, decide_eq_true_eq, eq_comm]
      rw [hstep, ih]
      constructor
      · rintro ⟨rfl, m, rfl, hm⟩
        exact ⟨m, rfl, hm⟩
      · rintro ⟨m, hn, hm⟩
        obtain ⟨rfl, rfl⟩ := List.cons.inj hn
        exact ⟨rfl, m, rfl, hm⟩

theorem fits_tokens_iff {s n : Text} : fits (tokens s) n = true ↔ n = s := by
  have h := fits_tokens_append s [] n
  rw [List.append_nil] at h
  rw [h]
  simp [fits]

theorem fits_run (m : Text) : fits [.anyRun] m = true := by
  rw [fits]
  induction m with
  | nil => rfl
  | cons c m ih => rw [endings, List.any_cons, ih, Bool.or_true]

theorem fits_tokens_run_iff {s n : Text} : fits (tokens s ++ [.anyRun]) n = true ↔ s <+: n := by
  rw [fits_tokens_append]
  constructor
  · rintro ⟨m, rfl, -⟩
    exact List.prefix_append s m
  · rintro ⟨m, rfl⟩
    exact ⟨m, rfl, fits_run m⟩

theorem literal?_tokens {s t : Text} (h : literal? (tokens s) = some t) : t = s := by
  induction s generalizing t with
  | nil => cases h; rfl
  | cons c s ih =>
    unfold tokens at h
    rw [List.map_cons] at h
    split at h
    · cases h
    · obtain ⟨r, hr, rfl⟩ := Option.map_eq_some_iff.1 h
      rw [ih hr]

theorem literal?_run (p : Pattern) : literal? (p ++ [.anyRun]) = none := by
  induction p with
  | nil => rfl
  | cons t p ih =>
    cases t with
    | exactly c =>
      rw [List.cons_append, literal?, ih]
      rfl
    | _ => rfl

/-! ## Steps of an expansion -/

section
variable {fs : FileSystem} {p q : Path} {s : Text}

theorem child_of_absolute (hp : p.isAbsolute = true) (n : Text) : child p n = p.join ⟨n⟩ := by
  rw [child, if_neg]
  rw [Path.components_eq, Path.startComponents_of_absolute hp]
  simp

theorem isAbsolute_of_mem_expandFrom (hp : p.isAbsolute = true) {patterns : List Pattern}
    (h : q ∈ expandFrom fs p patterns) :
    q.isAbsolute = true := by
  induction patterns generalizing p with
  | nil =>
    rw [expandFrom, List.mem_singleton] at h
    rw [h]
    exact hp
  | cons pattern rest ih =>
    have hchild : ∀ n, (child p n).isAbsolute = true := by
      intro n
      rw [child_of_absolute hp]
      exact Path.isAbsolute_join hp _
    rw [expandFrom] at h
    split at h
    · exact ih (hchild _) (List.mem_ite_nil_right.1 h).2
    · split at h
      · rcases List.mem_append.1 h with h | h
        · obtain ⟨n, -, h⟩ := List.mem_flatMap.1 h
          exact ih (hchild n) h
        · obtain ⟨n, -, h⟩ := List.mem_flatMap.1 (List.mem_ite_nil_right.1 h).2
          exact ih (Path.isAbsolute_join hp _) (List.mem_ite_nil_right.1 h).2
      · cases h

theorem expandFrom_exact (hp : p.isAbsolute = true) {rest : List Pattern}
    (h : q ∈ expandFrom fs p (tokens s :: rest)) :
    q ∈ expandFrom fs (p.join ⟨s⟩) rest := by
  rw [expandFrom] at h
  split at h
  · rename_i t ht
    dsimp only at h
    rw [literal?_tokens ht, child_of_absolute hp, List.mem_ite_nil_right] at h
    exact h.2
  · split at h
    · rcases List.mem_append.1 h with h | h
      · obtain ⟨n, hn, h⟩ := List.mem_flatMap.1 h
        have hns := fits_tokens_iff.1 (List.mem_filter.1 hn).2
        rwa [hns, child_of_absolute hp] at h
      · split at h
        · obtain ⟨n, -, h⟩ := List.mem_flatMap.1 h
          split at h
          · rename_i hfits
            rwa [fits_tokens_iff.1 hfits] at h
          · cases h
        · cases h
    · cases h

theorem expandFrom_run (hp : p.isAbsolute = true) (h : q ∈ expandFrom fs p [tokens s ++ [.anyRun]]) :
    ∃ n, s <+: n ∧ q = p.join ⟨n⟩ ∧ (n ∈ fs.namesIn p ∨ n ∈ [['.'], ['.', '.']]) := by
  rw [expandFrom, literal?_run] at h
  dsimp only at h
  split at h
  · rcases List.mem_append.1 h with h | h
    · obtain ⟨n, hn, h⟩ := List.mem_flatMap.1 h
      obtain ⟨hmem, hfits⟩ := List.mem_filter.1 hn
      rw [child_of_absolute hp, expandFrom, List.mem_singleton] at h
      exact ⟨n, fits_tokens_run_iff.1 hfits, h, .inl hmem⟩
    · split at h
      · obtain ⟨n, hn, h⟩ := List.mem_flatMap.1 h
        split at h
        · rename_i hfits
          rw [expandFrom, List.mem_singleton] at h
          exact ⟨n, fits_tokens_run_iff.1 hfits, h, .inr hn⟩
        · cases h
      · cases h
  · cases h

/-- Pieces that stand for themselves lead on by their joins. -/
theorem expandFrom_exacts (hp : p.isAbsolute = true) {pieces : List Text} {rest : List Pattern}
    (h : q ∈ expandFrom fs p (pieces.map tokens ++ rest)) :
    q ∈ expandFrom fs (pieces.foldl (fun p s => p.join ⟨s⟩) p) rest := by
  induction pieces generalizing p with
  | nil => exact h
  | cons s pieces ih => exact ih (Path.isAbsolute_join hp _) (expandFrom_exact hp h)

end

theorem mapM_parse (pieces : List Text) {f : Text → Text} {g : Text → Pattern}
    (h : ∀ s ∈ pieces, parse (f s) = .ok (g s)) :
    (pieces.map f).mapM parse = .ok (pieces.map g) := by
  induction pieces with
  | nil => rfl
  | cons s pieces ih =>
    rw [List.map_cons, List.mapM_cons, h s (List.mem_cons_self ..),
      ih fun t ht => h t (List.mem_cons_of_mem s ht)]
    rfl

end Glob

namespace Discovery

/-! ## The pattern of a discovery -/

def folders (start : Text) : List Text := (Text.splitOn '/' start).dropLast

def beginning (start : Text) : Text := (Text.splitOn '/' start).getLast (Text.splitOn_ne_nil '/' start)

theorem splitOn_start (start : Text) : Text.splitOn '/' start = folders start ++ [beginning start] :=
  (List.dropLast_concat_getLast (Text.splitOn_ne_nil '/' start)).symm

theorem folders_of_no_slash {start : Text} (h : '/' ∉ start) : folders start = [] := by
  rw [folders, Text.splitOn_of_not_mem h]
  rfl

theorem splitOn_escape (s : Text) :
    Text.splitOn '/' (Glob.escape s) = (Text.splitOn '/' s).map Glob.escape := by
  refine Text.splitOn_flatMap (by decide) (fun c hc => ?_) s
  split
  · simp [Ne.symm hc]
  · simp [Ne.symm hc]

theorem splitOn_escape_run (start : Text) :
    Text.splitOn '/' (Glob.escape start ++ ['*']) =
      (folders start).map Glob.escape ++ [Glob.escape (beginning start) ++ ['*']] := by
  refine Text.splitOn_append_of_not_mem (by decide) ?_
  rw [splitOn_escape, splitOn_start, List.map_append, List.map_singleton]

theorem head?_escape {s : Text} : (Glob.escape s).head? = some '/' ↔ s.head? = some '/' := by
  cases s with
  | nil => rfl
  | cons c r =>
    have hcons : Glob.escape (c :: r) =
        (if c = '?' ∨ c = '*' ∨ c = '[' ∨ c = ']' then ['[', c, ']'] else [c]) ++ Glob.escape r := by
      simp [Glob.escape]
    rw [hcons]
    split
    · rename_i hc
      have hne : c ≠ '/' := by rintro rfl; exact absurd hc (by decide)
      simp [hne]
    · simp

variable (c : Config) (start : Text)

theorem pieces_pattern : ∃ base, (c.benchmarkDirectory.isAbsolute = true → base = c.benchmarkDirectory.tail) ∧
    Glob.pieces (pattern c start) =
      (base ++ folders start).map Glob.escape ++ [Glob.escape (beginning start) ++ ['*']] := by
  have hlast : ∀ ps : List Text, (ps ++ [Glob.escape (beginning start) ++ ['*']]).getLast? ≠ some [] := by
    intro ps
    rw [List.getLast?_concat]
    simp
  rcases hd : c.benchmarkDirectory with ⟨d⟩
  unfold Glob.pieces pattern
  rw [hd]
  cases d with
  | nil =>
    refine ⟨[], by simp [Path.isAbsolute], ?_⟩
    have hhead : (Glob.escape [] ++ '/' :: Glob.escape start ++ ['*']).head? = some '/' := rfl
    have htail : (Glob.escape [] ++ '/' :: Glob.escape start ++ ['*']).tail = Glob.escape start ++ ['*'] :=
      rfl
    dsimp only
    rw [if_pos hhead, htail, splitOn_escape_run, if_neg (hlast _), List.nil_append]
  | cons a r =>
    by_cases ha : a = '/'
    · subst ha
      refine ⟨Text.splitOn '/' r, fun _ => rfl, ?_⟩
      have hpattern : Glob.escape ('/' :: r) ++ '/' :: Glob.escape start ++ ['*'] =
          '/' :: (Glob.escape r ++ '/' :: (Glob.escape start ++ ['*'])) := by
        simp [Glob.escape]
      dsimp only
      rw [hpattern, List.head?_cons, if_pos rfl, List.tail_cons, Text.splitOn_append,
        splitOn_escape, splitOn_escape_run, ← List.append_assoc, ← List.map_append, if_neg (hlast _)]
    · refine ⟨Text.splitOn '/' (a :: r), by simp [Path.isAbsolute, ha], ?_⟩
      have hhead : (Glob.escape (a :: r) ++ '/' :: Glob.escape start ++ ['*']).head? ≠ some '/' := by
        have hne : Glob.escape (a :: r) ≠ [] := by
          simp only [Glob.escape, List.flatMap_cons]
          split <;> simp
        rw [List.append_assoc, List.head?_append]
        intro h
        cases he : (Glob.escape (a :: r)).head? with
        | none => exact hne (List.head?_eq_none_iff.1 he)
        | some b =>
          rw [he] at h
          cases h
          exact ha (by simpa using head?_escape.1 he)
      dsimp only
      rw [if_neg hhead, List.append_assoc, List.cons_append, Text.splitOn_append,
        splitOn_escape, splitOn_escape_run, ← List.append_assoc, ← List.map_append, if_neg (hlast _)]

/-- As one text a pattern is that of the directory and the start of the name, with a star after them. -/
theorem parse_pattern (directory start : Text) :
    Glob.parse (Glob.escape directory ++ '/' :: Glob.escape start ++ ['*']) =
    .ok (Glob.tokens (directory ++ '/' :: start) ++ [.anyRun]) := by
  have hescape : Glob.escape directory ++ '/' :: Glob.escape start =
      Glob.escape (directory ++ '/' :: start) := by
    simp [Glob.escape]
  rw [hescape, Glob.parse_escape_run]

/-- A pattern is never refused. From a directory that is absolute its pieces start at the root. -/
theorem expand_pattern (fs : FileSystem) : ∃ origin base,
    (c.benchmarkDirectory.isAbsolute = true → origin = ("/" : Path) ∧ base = c.benchmarkDirectory.tail) ∧
    Glob.expand fs (pattern c start) = .ok (Glob.expandFrom fs origin
      ((base ++ folders start).map Glob.tokens ++ [Glob.tokens (beginning start) ++ [.anyRun]])) := by
  obtain ⟨base, hbase, hpieces⟩ := pieces_pattern c start
  have hstart : c.benchmarkDirectory.isAbsolute = true → (pattern c start).head? = some '/' := by
    intro h
    have hhead : c.benchmarkDirectory.text.head? = some '/' := by simpa [Path.isAbsolute] using h
    rw [pattern, List.append_assoc, List.head?_append, head?_escape.2 hhead]
    rfl
  refine ⟨if (pattern c start).head? = some '/' then "/" else ".", base,
    fun h => ⟨if_pos (hstart h), hbase h⟩, ?_⟩
  have hexact := Glob.mapM_parse (base ++ folders start) fun s _ => Glob.parse_escape s
  have hrun := Glob.mapM_parse [beginning start] fun s _ => Glob.parse_escape_run s
  rw [List.map_singleton, List.map_singleton] at hrun
  rw [Glob.expand, hpieces, List.mapM_append, hexact, hrun]
  rfl

end Discovery

end TriBench
