import Mathlib
import TriBench.Proofs.Config.Resolved
import TriBench.Proofs.Discovery.Found
import TriBench.Proofs.FileSystem.Entries
import TriBench.Proofs.Path.Absolute
import TriBench.Proofs.Text.ByteOrder

/-!
# All that a discovery finds

Prefixes without slashes select names in one directory. Main statement: `discovery_exact`, the
benchmarks are the files there that a prefix selects by their names, in the order of the names, so
it makes no difference in which order the prefixes come and how often.
-/

namespace TriBench

/-! ## Joined paths -/

namespace Path

theorem below_sublist (p : Path) : p.below.Sublist (p.text ++ ['/']) := by
  unfold below
  split
  · exact List.sublist_append_left p.text ['/']
  · exact List.Sublist.refl _

theorem below_join {p : Path} {s : Text} (hs : '/' ∉ s) (hne : s ≠ []) :
    (p.join ⟨s⟩).below = p.below ++ s ++ ['/'] := by
  rw [join_eq p hs, below, if_neg]
  obtain ⟨l, a, rfl⟩ := List.eq_nil_or_concat s |>.resolve_left hne
  have ha : a ≠ '/' := by
    rintro rfl
    simp at hs
  simp [ha]

theorem foldl_join_sublist {p : Path} {s : Text} {r : List Text} (hslash : ∀ t ∈ s :: r, '/' ∉ t) :
    ((s :: r).foldl (fun p s => p.join ⟨s⟩) p).text.Sublist (p.below ++ Text.joinWith ['/'] (s :: r)) := by
  have hs := hslash s (List.mem_cons_self ..)
  induction r generalizing p s with
  | nil => simp [join_eq p hs, Text.joinWith]
  | cons t r ih =>
    have ht := hslash t (List.mem_cons_of_mem s (List.mem_cons_self ..))
    have hlater := ih (p := p.join ⟨s⟩) (fun u hu => hslash u (List.mem_cons_of_mem s hu)) ht
    have hbelow := below_sublist (p.join ⟨s⟩)
    rw [join_eq p hs] at hbelow hlater
    rw [List.foldl_cons, join_eq p hs, Text.joinWith_cons_cons, ← List.append_assoc, ← List.append_assoc]
    exact hlater.trans (hbelow.append_right _)

/-- Without slashes in a row no character is lost. -/
theorem foldl_join_eq {p : Path} {s : Text} {r : List Text} (hslash : ∀ t ∈ s :: r, '/' ∉ t)
    (hsingle : ¬ ['/', '/'] <:+: '/' :: Text.joinWith ['/'] (s :: r)) :
    (s :: r).foldl (fun p s => p.join ⟨s⟩) p = ⟨p.below ++ Text.joinWith ['/'] (s :: r)⟩ := by
  have hs := hslash s (List.mem_cons_self ..)
  induction r generalizing p s with
  | nil => simp [join_eq p hs, Text.joinWith]
  | cons t r ih =>
    have ht := hslash t (List.mem_cons_of_mem s (List.mem_cons_self ..))
    rw [Text.joinWith_cons_cons] at hsingle ⊢
    have hne : s ≠ [] := by
      rintro rfl
      exact hsingle ⟨[], _, rfl⟩
    have hlater : ¬ ['/', '/'] <:+: '/' :: Text.joinWith ['/'] (t :: r) :=
      fun h => hsingle (h.trans ⟨'/' :: s, [], by simp⟩)
    rw [List.foldl_cons, ih (fun u hu => hslash u (List.mem_cons_of_mem s hu)) hlater ht, below_join hs hne]
    simp

theorem join_inj {p : Path} {a b : Text} (ha : IsName a) (hb : IsName b)
    (h : p.join ⟨a⟩ = p.join ⟨b⟩) : a = b := by
  have hname := congrArg fileName? h
  rw [fileName?_join p ha, fileName?_join p hb] at hname
  exact Option.some.inj hname

theorem compare_toNat (a b : Text) : compare (a.map Char.toNat) (b.map Char.toNat) = compare a b := by
  induction a generalizing b with
  | nil => cases b <;> rfl
  | cons c a ih =>
    cases b with
    | nil => rfl
    | cons d b =>
      have hchar : compare c.toNat d.toNat = compare c d := by
        show compareOfLessAndEq c.toNat d.toNat = compareOfLessAndEq c d
        have hlt : c.toNat < d.toNat ↔ c < d := Iff.rfl
        simp only [compareOfLessAndEq, hlt, Char.toNat_inj]
      rw [List.map_cons, List.map_cons, List.compare_cons_cons, List.compare_cons_cons, ih, hchar]

theorem compare_concat_name (cs : List Component) (a b : Text) :
    compare (cs ++ [.name a]) (cs ++ [.name b]) = compare a b := by
  induction cs with
  | nil =>
    have hkey : compare (Component.name a) (.name b) = compare a b := by
      show compare (3 :: a.map Char.toNat) (3 :: b.map Char.toNat) = _
      rw [List.compare_cons_cons, Std.compare_self, compare_toNat]
      rfl
    rw [List.nil_append, List.nil_append, List.compare_cons_cons, hkey]
    exact Ordering.then_eq
  | cons c cs ih =>
    rw [List.cons_append, List.cons_append, List.compare_cons_cons, Std.compare_self, ih]
    rfl

end Path

/-! ## Expansions that miss nothing -/

namespace FileSystem
variable {fs : FileSystem} {p : Path}

theorem isDirectory_of_mem_namesIn {n : Text} (h : n ∈ fs.namesIn p) : fs.isDirectory p = true := by
  unfold namesIn at h
  unfold isDirectory
  split at h
  · rfl
  · cases h

theorem has_of_isDirectory (h : fs.isDirectory p = true) : fs.has p = true := by
  unfold isDirectory at h
  unfold has
  split at h
  · rename_i hstat
    rw [hstat]
    rfl
  · cases h

theorem has_of_has_foldl_join (hp : p.isAbsolute = true) {pieces : List Text} (hslash : ∀ s ∈ pieces, '/' ∉ s)
    (h : fs.has (pieces.foldl (fun p s => p.join ⟨s⟩) p) = true) : fs.has p = true := by
  induction pieces generalizing p with
  | nil => exact h
  | cons s pieces ih =>
    have hs := ih (Path.isAbsolute_join hp ⟨s⟩) (fun t ht => hslash t (List.mem_cons_of_mem s ht)) h
    obtain ⟨loc, hstat, -⟩ := stat?_of_has_join hp (hslash s (List.mem_cons_self ..)) hs
    rw [has, hstat]
    rfl

end FileSystem

namespace Glob
variable {fs : FileSystem} {p q : Path} {s : Text}

/-- Dots and the empty text are patterns without alternatives. -/
theorem isName_of_literal? (hs : '/' ∉ s) (h : literal? (tokens s) = none) : Path.IsName s where
  ne_nil := by rintro rfl; cases h
  noSlash := hs
  ne_here := by rintro rfl; cases h
  ne_up := by rintro rfl; cases h

theorem mem_expandFrom_exact (hp : p.isAbsolute = true) (hs : '/' ∉ s) (hhas : fs.has (p.join ⟨s⟩) = true)
    {rest : List Pattern} (h : q ∈ expandFrom fs (p.join ⟨s⟩) rest) :
    q ∈ expandFrom fs p (tokens s :: rest) := by
  obtain ⟨loc, hstat, hentry⟩ := FileSystem.stat?_of_has_join hp hs hhas
  have hdirectory : fs.isDirectory p = true := by rw [FileSystem.isDirectory, hstat]
  rw [expandFrom]
  cases hl : literal? (tokens s) with
  | some t =>
    dsimp only
    rw [literal?_tokens hl, child_of_absolute hp, hdirectory, hhas, ite_self, if_pos rfl]
    exact h
  | none =>
    dsimp only
    rw [if_pos hdirectory]
    apply List.mem_append_left
    have hfits := List.mem_filter.2 ⟨hentry (isName_of_literal? hs hl), fits_tokens_iff.2 rfl⟩
    refine List.mem_flatMap.2 ⟨s, hfits, ?_⟩
    rw [child_of_absolute hp]
    exact h

theorem mem_expandFrom_exacts (hp : p.isAbsolute = true) {pieces : List Text} (hslash : ∀ s ∈ pieces, '/' ∉ s)
    (hhas : fs.has (pieces.foldl (fun p s => p.join ⟨s⟩) p) = true) {rest : List Pattern}
    (h : q ∈ expandFrom fs (pieces.foldl (fun p s => p.join ⟨s⟩) p) rest) :
    q ∈ expandFrom fs p (pieces.map tokens ++ rest) := by
  induction pieces generalizing p with
  | nil => exact h
  | cons s pieces ih =>
    have hlater : ∀ t ∈ pieces, '/' ∉ t := fun t ht => hslash t (List.mem_cons_of_mem s ht)
    have hjoin := Path.isAbsolute_join hp ⟨s⟩
    apply mem_expandFrom_exact hp (hslash s (List.mem_cons_self ..))
    · exact FileSystem.has_of_has_foldl_join hjoin hlater hhas
    · exact ih hjoin hlater hhas h

theorem mem_expandFrom_run (hp : p.isAbsolute = true) {n : Text} (hn : n ∈ fs.namesIn p) (hs : s <+: n) :
    p.join ⟨n⟩ ∈ expandFrom fs p [tokens s ++ [.anyRun]] := by
  rw [expandFrom, literal?_run]
  dsimp only
  rw [if_pos (FileSystem.isDirectory_of_mem_namesIn hn)]
  apply List.mem_append_left
  refine List.mem_flatMap.2 ⟨n, List.mem_filter.2 ⟨hn, fits_tokens_run_iff.2 hs⟩, ?_⟩
  rw [child_of_absolute hp, expandFrom]
  exact List.mem_singleton_self _

end Glob

namespace Discovery

/-! ## The directory -/

/-- The benchmark directory as its pattern leads to it: slashes in a row count as one. -/
def searched (c : Config) : Path := c.benchmarkDirectory.tail.foldl (fun p s => p.join ⟨s⟩) "/"

variable {fs : FileSystem} {c : Config}

theorem searched_spec (hc : c.benchmarkDirectory.isAbsolute = true) :
    (searched c).isAbsolute = true ∧ (searched c).components = c.benchmarkDirectory.components := by
  obtain ⟨habs, hcomponents⟩ := components_foldl_join (p := "/") rfl fun s hs => Path.noSlash_of_mem_tail hs
  refine ⟨habs, hcomponents.trans ?_⟩
  rw [Path.components_eq c.benchmarkDirectory, Path.startComponents_of_absolute hc]
  rfl

theorem searched_sublist (hc : c.benchmarkDirectory.isAbsolute = true) :
    (searched c).text.Sublist c.benchmarkDirectory.text := by
  rw [Path.text_eq_tail hc, searched]
  obtain ⟨s, r, htail⟩ := List.exists_cons_of_ne_nil (Path.tail_ne_nil hc)
  rw [htail]
  exact Path.foldl_join_sublist fun t ht => Path.noSlash_of_mem_tail (htail ▸ ht)

theorem searched_eq (hc : c.benchmarkDirectory.isAbsolute = true)
    (h : ¬ ['/', '/'] <:+: c.benchmarkDirectory.text) :
    searched c = c.benchmarkDirectory := by
  have htext := Path.text_eq_tail hc
  obtain ⟨s, r, htail⟩ := List.exists_cons_of_ne_nil (Path.tail_ne_nil hc)
  rw [htail] at htext
  rw [htext] at h
  have hfold := Path.foldl_join_eq (p := "/") (fun t ht => Path.noSlash_of_mem_tail (htail ▸ ht)) h
  rw [searched, htail, hfold]
  show (⟨'/' :: Text.joinWith ['/'] (s :: r)⟩ : Path) = _
  rw [← htext]

theorem namesIn_searched (hc : c.benchmarkDirectory.isAbsolute = true)
    (h : fs.isDirectory c.benchmarkDirectory = true) :
    fs.namesIn (searched c) = fs.namesIn c.benchmarkDirectory := by
  obtain ⟨habs, hcomponents⟩ := searched_spec hc
  unfold FileSystem.isDirectory at h
  split at h
  · rename_i loc hstat
    have hsearched := FileSystem.stat?_of_components hc habs hcomponents (searched_sublist hc) hstat
    rw [FileSystem.namesIn, FileSystem.namesIn, hstat, hsearched]
  · cases h

/-! ## The selection -/

variable (fs c) in
structure Selects (prefixes : List Text) (n : Text) : Prop where
  entry : n ∈ fs.namesIn (searched c)
  begins : prefixes = [] ∨ ∃ s ∈ prefixes, s <+: n
  /-- Links are followed. -/
  isFile : fs.isFile ((searched c).join ⟨n⟩) = true
  notSupport : n ∉ c.supportSources
  extension : ∃ s e, n = s ++ '.' :: e ∧ s ≠ [] ∧ '.' ∉ e ∧ (e = c.sourceExtension ∨ e = c.compositeExtension)

theorem selects_congr {prefixes prefixes' : List Text} (hsame : ∀ s, s ∈ prefixes' ↔ s ∈ prefixes)
    (n : Text) :
    Selects fs c prefixes' n ↔ Selects fs c prefixes n := by
  have hnil : prefixes' = [] ↔ prefixes = [] := by
    rw [List.eq_nil_iff_forall_not_mem, List.eq_nil_iff_forall_not_mem]
    simp only [hsame]
  have hbegins : (prefixes' = [] ∨ ∃ s ∈ prefixes', s <+: n) ↔ (prefixes = [] ∨ ∃ s ∈ prefixes, s <+: n) := by
    simp only [hnil, hsame]
  constructor
  · intro h
    exact { h with begins := hbegins.1 h.begins }
  · intro h
    exact { h with begins := hbegins.2 h.begins }

theorem isRecognized_join_iff (p : Path) {n : Text} (hn : Path.IsName n) :
    isRecognized c (p.join ⟨n⟩) = true ↔
    n ∉ c.supportSources ∧
      ∃ s e, n = s ++ '.' :: e ∧ s ≠ [] ∧ '.' ∉ e ∧ (e = c.sourceExtension ∨ e = c.compositeExtension) := by
  have hextension : ∀ ext : Text, (Path.splitName n).2 = some ext ↔
      ∃ s, n = s ++ '.' :: ext ∧ s ≠ [] ∧ '.' ∉ ext := by
    intro ext
    constructor
    · intro h
      rcases Path.splitName_cases n with ⟨-, hsplit⟩ | ⟨s, e, hdot, hs, he, hsplit⟩ <;>
        rw [hsplit] at h <;> cases h
      exact ⟨s, hdot, hs, he⟩
    · rintro ⟨s, rfl, hs, he⟩
      rw [Path.splitName_dotted hs he]
  unfold isRecognized
  rw [Path.fileName?_join p hn, Path.extension?_join p hn]
  simp only [Bool.and_eq_true, Bool.or_eq_true, decide_eq_true_eq, hextension]
  apply and_congr_right
  intro _
  constructor
  · rintro (⟨s, h, hs, he⟩ | ⟨s, h, hs, he⟩)
    · exact ⟨s, _, h, hs, he, .inl rfl⟩
    · exact ⟨s, _, h, hs, he, .inr rfl⟩
  · rintro ⟨s, e, h, hs, he, rfl | rfl⟩
    · exact .inl ⟨s, h, hs, he⟩
    · exact .inr ⟨s, h, hs, he⟩

theorem beginning_of_no_slash {start : Text} (h : '/' ∉ start) : beginning start = start := by
  have hstart := splitOn_start start
  rw [folders_of_no_slash h, Text.splitOn_of_not_mem h] at hstart
  exact (List.cons.inj hstart).1.symm

theorem mem_expand_iff (hc : c.benchmarkDirectory.isAbsolute = true) {start : Text} (hstart : '/' ∉ start)
    {p : Path} (hp : fs.isFile p = true) : (∃ ps, Glob.expand fs (pattern c start) = .ok ps ∧ p ∈ ps) ↔
      ∃ n ∈ fs.namesIn (searched c), start <+: n ∧ p = (searched c).join ⟨n⟩ := by
  obtain ⟨habs, -⟩ := searched_spec hc
  have hslash : ∀ s ∈ c.benchmarkDirectory.tail, '/' ∉ s := fun s hs => Path.noSlash_of_mem_tail hs
  obtain ⟨origin, base, habsolute, hexpand⟩ := expand_pattern c start fs
  obtain ⟨rfl, rfl⟩ := habsolute hc
  rw [folders_of_no_slash hstart, beginning_of_no_slash hstart, List.append_nil] at hexpand
  rw [hexpand]
  constructor
  · rintro ⟨ps, hps, hmem⟩
    cases hps
    obtain ⟨n, hbegins, rfl, hn⟩ := Glob.expandFrom_run habs (Glob.expandFrom_exacts rfl hmem)
    rcases hn with hn | hn
    · exact ⟨n, hn, hbegins, rfl⟩
    · simp only [List.mem_cons, List.not_mem_nil, or_false] at hn
      rw [FileSystem.isFile_join_dots (Path.ne_nil_of_isAbsolute habs) hn] at hp
      cases hp
  · rintro ⟨n, hn, hbegins, rfl⟩
    have hhas := FileSystem.has_of_isDirectory (FileSystem.isDirectory_of_mem_namesIn hn)
    exact ⟨_, rfl, Glob.mem_expandFrom_exacts rfl hslash hhas (Glob.mem_expandFrom_run habs hn hbegins)⟩

theorem exists_mem_starts_iff {prefixes : List Text} {n : Text} :
    (∃ start ∈ starts prefixes, start <+: n) ↔ prefixes = [] ∨ ∃ s ∈ prefixes, s <+: n := by
  unfold starts
  by_cases h : prefixes = [] <;> simp [h]

theorem mem_kept_iff (hc : c.benchmarkDirectory.isAbsolute = true) (hfs : fs.WellNamed) {prefixes : List Text}
    (hslash : ∀ s ∈ prefixes, '/' ∉ s) (p : Path) :
    (fs.isFile p = true ∧ isRecognized c p = true ∧
        ∃ start ∈ starts prefixes, ∃ ps, Glob.expand fs (pattern c start) = .ok ps ∧ p ∈ ps) ↔
      ∃ n, Selects fs c prefixes n ∧ p = (searched c).join ⟨n⟩ := by
  constructor
  · rintro ⟨hfile, hrecognized, start, hstart, hps⟩
    obtain ⟨n, hn, hbegins, rfl⟩ := (mem_expand_iff hc (noSlash_of_mem_starts hslash hstart) hfile).1 hps
    have hname := FileSystem.isName_of_mem_namesIn hfs hn
    obtain ⟨hsupport, hextension⟩ := (isRecognized_join_iff _ hname).1 hrecognized
    exact ⟨n, ⟨hn, exists_mem_starts_iff.1 ⟨start, hstart, hbegins⟩, hfile, hsupport, hextension⟩, rfl⟩
  · rintro ⟨n, h, rfl⟩
    have hname := FileSystem.isName_of_mem_namesIn hfs h.entry
    obtain ⟨start, hstart, hbegins⟩ := exists_mem_starts_iff.2 h.begins
    refine ⟨h.isFile, (isRecognized_join_iff _ hname).2 ⟨h.notSupport, h.extension⟩, start, hstart, ?_⟩
    exact (mem_expand_iff hc (noSlash_of_mem_starts hslash hstart) h.isFile).2 ⟨n, h.entry, hbegins, rfl⟩

/-! ## The order -/

theorem Selects.isName (hfs : fs.WellNamed) {prefixes : List Text} {n : Text} (h : Selects fs c prefixes n) :
    Path.IsName n :=
  FileSystem.isName_of_mem_namesIn hfs h.entry

theorem Selects.components (hfs : fs.WellNamed) {prefixes : List Text} {n : Text}
    (h : Selects fs c prefixes n) :
    ((searched c).join ⟨n⟩).components = (searched c).components ++ [.name n] :=
  Path.components_join _ (h.isName hfs)

/-- No two of the paths have the same components, so none of them gives way to another one. -/
theorem mem_values_iff (hfs : fs.WellNamed) {prefixes : List Text} {kept : List Path}
    (hkept : ∀ p, p ∈ kept ↔ ∃ n, Selects fs c prefixes n ∧ p = (searched c).join ⟨n⟩) (p : Path) :
    p ∈ (OrderedMap.index Path.components kept).values ↔ p ∈ kept := by
  apply OrderedMap.mem_values_index_iff
  intro p hp q hq h
  obtain ⟨n, hn, rfl⟩ := (hkept p).1 hp
  obtain ⟨m, hm, rfl⟩ := (hkept q).1 hq
  rw [hn.components hfs, hm.components hfs, List.append_cancel_left_eq] at h
  cases h
  rfl

theorem exists_names (hc : c.benchmarkDirectory.isAbsolute = true) (hfs : fs.WellNamed) {prefixes : List Text}
    (hslash : ∀ s ∈ prefixes, '/' ∉ s) : ∃ names : List Text,
      discover fs c prefixes = .ok (names.map fun n => (searched c).join ⟨n⟩) ∧
        names.Pairwise (fun a b => compare a b = .lt) ∧ ∀ n, n ∈ names ↔ Selects fs c prefixes n := by
  obtain ⟨kept, hdiscover, hmem⟩ := exists_kept fs c prefixes
  have hkept : ∀ p, p ∈ kept ↔ ∃ n, Selects fs c prefixes n ∧ p = (searched c).join ⟨n⟩ :=
    fun p => (hmem p).trans (mem_kept_iff hc hfs hslash p)
  have hvalues := mem_values_iff hfs hkept
  choose! name hselects hjoin using fun p hp => (hkept p).1 ((hvalues p).1 hp)
  refine ⟨(OrderedMap.index Path.components kept).values.map name, ?_, List.pairwise_map.2 ?_, fun n => ?_⟩
  · rw [hdiscover, List.map_map]
    exact congrArg Except.ok ((List.map_id _).symm.trans (List.map_congr_left hjoin))
  · have hkeys := (OrderedMap.index Path.components kept).keys_ascending
    rw [OrderedMap.keys_index, List.pairwise_map] at hkeys
    refine hkeys.imp_of_mem fun {p q} hp hq h => ?_
    rw [hjoin p hp, hjoin q hq, (hselects p hp).components hfs, (hselects q hq).components hfs,
      Path.compare_concat_name] at h
    exact h
  · rw [List.mem_map]
    constructor
    · rintro ⟨p, hp, rfl⟩
      exact hselects p hp
    · intro hn
      have hp := (hvalues _).2 ((hkept _).2 ⟨n, hn, rfl⟩)
      exact ⟨_, hp, (Path.join_inj (hn.isName hfs) ((hselects _ hp).isName hfs) (hjoin _ hp)).symm⟩

theorem eq_of_ascending {l l' : List Text} (h : l.Pairwise fun a b => compare a b = .lt)
    (h' : l'.Pairwise fun a b => compare a b = .lt) (hmem : ∀ n, n ∈ l ↔ n ∈ l') : l = l' := by
  have hnodup : ∀ {l : List Text}, (l.Pairwise fun a b => compare a b = .lt) → l.Nodup := by
    intro l hl
    refine hl.imp fun {a b} hab heq => ?_
    rw [heq, Std.compare_self] at hab
    cases hab
  refine List.Perm.eq_of_pairwise (fun a b _ _ hab hba => ?_) h h' ?_
  · exact absurd hab (Std.OrientedCmp.not_lt_of_lt hba)
  · exact (List.perm_ext_iff_of_nodup (hnodup h) (hnodup h')).2 hmem

/-- **Discovery.** Prefixes without slashes find the files in the benchmark directory that they
select, each of them once and in the order of their names, and nothing else. -/
theorem discovery_exact (given c : Config) (working : Path) (hworking : working.isAbsolute = true)
    (hconfig : given.resolve working = .ok c) (fs : FileSystem) (hfs : fs.WellNamed) (prefixes : List Text)
    (hslash : ∀ s ∈ prefixes, '/' ∉ s) :
    (searched c).components = c.benchmarkDirectory.components ∧
      (¬ ['/', '/'] <:+: c.benchmarkDirectory.text → searched c = c.benchmarkDirectory) ∧
      (fs.isDirectory c.benchmarkDirectory = true →
        fs.namesIn (searched c) = fs.namesIn c.benchmarkDirectory) ∧
      (∃ names : List Text, discover fs c prefixes = .ok (names.map fun n => (searched c).join ⟨n⟩) ∧
        names.Pairwise (fun a b => Text.toBytes a < Text.toBytes b) ∧
        ∀ n, n ∈ names ↔ Selects fs c prefixes n) ∧
      ∀ prefixes', (∀ s, s ∈ prefixes' ↔ s ∈ prefixes) →
        discover fs c prefixes' = discover fs c prefixes := by
  have hc := (Config.resolved_of_resolve hworking hconfig).benchmarkDirectory
  obtain ⟨names, hdiscover, hascending, hmem⟩ := exists_names hc hfs hslash
  refine ⟨(searched_spec hc).2, searched_eq hc, namesIn_searched hc,
    ⟨names, hdiscover, hascending.imp Text.toBytes_lt, hmem⟩, ?_⟩
  intro prefixes' hsame
  obtain ⟨names', hdiscover', hascending', hmem'⟩ := exists_names hc hfs fun s hs => hslash s ((hsame s).1 hs)
  have hnames : names' = names := by
    apply eq_of_ascending hascending' hascending
    intro n
    rw [hmem', hmem, selects_congr hsame]
  rw [hdiscover', hdiscover, hnames]

def bracketed : FileSystem :=
  .ofNodes ["w"] [(["w"], .directory), (["w", "x"], .file [] false), (["w", "b[1]"], .directory),
    (["w", "b[1]", "ab.c"], .link "../x"), (["w", "b[1]", "a*.c"], .file [] false),
    (["w", "b[1]", ".a.c"], .file [] false), (["w", "b[1]", "a.c"], .directory)]

theorem discovery_exact_bracketed :
    let c : Config :=
      { benchmarkDirectory := "/w/b[1]", sandboxRoot := "/w/lindfs"
        repository := { workingCopy := "/w/tests/lind-wasm-example-grates" } }
    ("/w" : Path).isAbsolute = true ∧
      Config.resolve "/w" { benchmarkDirectory := "b[1]" } = .ok c ∧ bracketed.WellNamed ∧
      (∀ s ∈ [['a'], ['a', '*'], ['a']], '/' ∉ s) ∧
      discover bracketed c [['a'], ['a', '*'], ['a']] = .ok ["/w/b[1]/a*.c", "/w/b[1]/ab.c"] ∧
      ∃ names : List Text,
        discover bracketed c [['a'], ['a', '*'], ['a']] = .ok (names.map fun n => (searched c).join ⟨n⟩) ∧
        names.Pairwise (fun a b => Text.toBytes a < Text.toBytes b) ∧
        ∀ n, n ∈ names ↔ Selects bracketed c [['a'], ['a', '*'], ['a']] n := by
  intro c
  have hconfig : Config.resolve "/w" { benchmarkDirectory := "b[1]" } = .ok c := rfl
  have hfs : bracketed.WellNamed := by decide
  have hslash : ∀ s ∈ [['a'], ['a', '*'], ['a']], '/' ∉ s := by decide
  have hfound : discover bracketed c [['a'], ['a', '*'], ['a']] = .ok ["/w/b[1]/a*.c", "/w/b[1]/ab.c"] := by
    cbv
  have hexact := discovery_exact { benchmarkDirectory := "b[1]" } c "/w" rfl hconfig bracketed hfs _ hslash
  exact ⟨rfl, hconfig, hfs, hslash, hfound, hexact.2.2.2.1⟩

end Discovery

end TriBench
