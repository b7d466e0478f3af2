import TriBench.Benchmark
import TriBench.Discovery
import TriBench.Proofs.Path.Names

/-!
# The names of composites

The name of a composite lists its parts. Taking it apart at the delimiter and putting names together
with it undo each other, for every delimiter that can stand in a file name. Main statement:
`composite_names`. The one marker that is none is called by its extension alone: its dot is the
start of the file name and separates nothing.
-/

namespace TriBench

theorem Part.name_ofName (suffix name : Text) : (Part.ofName suffix name).name = name := by
  unfold Part.ofName
  split <;> rfl

theorem Part.ofName_eq_shim_iff {suffix name : Text} :
    Part.ofName suffix name = .shim name ↔ suffix <:+ name := by
  unfold Part.ofName
  rw [← List.isSuffixOf_iff_suffix]
  split <;> simp_all

theorem Part.map_name_ofName (suffix : Text) (names : List Text) :
    (names.map (Part.ofName suffix)).map Part.name = names := by
  have hname : Part.name ∘ Part.ofName suffix = id := funext (Part.name_ofName suffix)
  rw [List.map_map, hname, List.map_id]

namespace Path

theorem ne_nil_of_fileName? {p : Path} {n : Text} (h : p.fileName? = some n) : n ≠ [] :=
  (noSlash_of_mem_components (mem_components_of_fileName? h)).1

/-- The extension that a file name shows, which is empty also without a dot. -/
def shown (n : Text) : Text := (splitName n).2.getD []

theorem shown_dotted {s e : Text} (hs : s ≠ []) (he : '.' ∉ e) : shown (dotted s e) = e := by
  rw [shown, dotted, splitName_dotted hs he]
  rfl

/-- A name that shows an extension is its stem with that extension. -/
theorem eq_dotted_of_shown {n : Text} (h : shown n ≠ []) : n = dotted (stem n) (shown n) := by
  rcases splitName_cases n with ⟨-, hsplit⟩ | ⟨s, e, hn, -, -, hsplit⟩
  · exact absurd (by rw [shown, hsplit]; rfl) h
  · rw [stem, shown, hsplit]
    exact hn

end Path

namespace Benchmark

section
variable (c : Config)

def piecesOf (name : Text) : List Text := Text.splitOn c.compositeDelimiter name

/-- What a file is, by its stem and the extension that it shows. -/
inductive Verdict (p : Path) (name extension : Text) : Except DefinitionError Benchmark → Prop
  | simple (h : extension = c.sourceExtension) :
    Verdict p name extension (.ok ⟨name, p, .simple, [.source name]⟩)
  | emptyPart (hs : extension ≠ c.sourceExtension) (h : extension = c.compositeExtension)
    (hempty : [] ∈ piecesOf c name) :
    Verdict p name extension (.error (.emptyPart p))
  | composite (hs : extension ≠ c.sourceExtension) (h : extension = c.compositeExtension)
    (hempty : [] ∉ piecesOf c name) :
    Verdict p name extension (.ok ⟨name, p, .composite, (piecesOf c name).map (Part.ofName c.shimSuffix)⟩)
  | unsupported (hs : extension ≠ c.sourceExtension) (h : extension ≠ c.compositeExtension) :
    Verdict p name extension (.error (.unsupportedExtension p extension))

theorem ofPath_verdict {p : Path} {n : Text} (h : p.fileName? = some n) :
    Verdict c p (Path.stem n) (Path.shown n) (ofPath c p) := by
  have hstem : p.fileStem?.filter (· ≠ []) = some (Path.stem n) := by
    rw [Path.fileStem?, h, Option.map_some]
    exact Option.filter_eq_some_iff.2 ⟨rfl, by simpa using Path.stem_ne_nil (Path.ne_nil_of_fileName? h)⟩
  have hextension : p.extension?.getD [] = Path.shown n := by
    rw [Path.extension?, h]
    rfl
  unfold ofPath
  rw [hstem, hextension]
  dsimp only
  split
  · exact .simple ‹_›
  · split
    · split
      · exact .emptyPart ‹_› ‹_› ‹_›
      · exact .composite ‹_› ‹_› ‹_›
    · exact .unsupported ‹_› ‹_›

section
variable {c} {p : Path} {b : Benchmark}

theorem exists_verdict (h : ofPath c p = .ok b) :
    ∃ n, p.fileName? = some n ∧ Verdict c p (Path.stem n) (Path.shown n) (.ok b) := by
  cases hn : p.fileName? with
  | some n => exact ⟨n, rfl, h ▸ ofPath_verdict c hn⟩
  | none =>
    unfold ofPath at h
    rw [Path.fileStem?, hn] at h
    cases h

theorem path_of_ofPath (h : ofPath c p = .ok b) : b.path = p := by
  obtain ⟨n, -, hverdict⟩ := exists_verdict h
  cases hverdict <;> rfl

theorem parts_ne_nil (h : ofPath c p = .ok b) : b.parts ≠ [] := by
  obtain ⟨n, -, hverdict⟩ := exists_verdict h
  cases hverdict with
  | simple => exact List.cons_ne_nil _ _
  | composite => simpa [piecesOf] using Text.splitOn_ne_nil c.compositeDelimiter (Path.stem n)

theorem name_of_mem_parts (h : ofPath c p = .ok b) {q : Part} (hq : q ∈ b.parts) :
    q.name ≠ [] ∧ '/' ∉ q.name := by
  obtain ⟨n, hn, hverdict⟩ := exists_verdict h
  have hstem : p.fileStem? = some (Path.stem n) := by
    rw [Path.fileStem?, hn]
    rfl
  cases hverdict with
  | simple =>
    rw [List.mem_singleton.1 hq]
    exact ⟨Path.stem_ne_nil (Path.ne_nil_of_fileName? hn), Path.noSlash_of_fileStem? hstem⟩
  | composite _ _ hempty =>
    obtain ⟨m, hm, rfl⟩ := List.mem_map.1 hq
    rw [Part.name_ofName]
    refine ⟨?_, fun hmem => Path.noSlash_of_fileStem? hstem (Text.subset_of_mem_splitOn hm hmem)⟩
    rintro rfl
    exact hempty hm

theorem undelimited_of_mem_parts (h : ofPath c p = .ok b) (hk : b.kind = .composite) {q : Part}
    (hq : q ∈ b.parts) :
    c.compositeDelimiter ∉ q.name := by
  obtain ⟨n, -, hverdict⟩ := exists_verdict h
  cases hverdict with
  | simple => cases hk
  | composite =>
    obtain ⟨m, hm, rfl⟩ := List.mem_map.1 hq
    rw [Part.name_ofName]
    exact Text.not_mem_of_mem_splitOn hm

/-- With dots for delimiters no part has one. -/
theorem undotted_of_mem_parts (h : ofPath c p = .ok b) (hk : b.kind = .composite)
    (hd : c.compositeDelimiter = '.') {q : Part} (hq : q ∈ b.parts) :
    '.' ∉ q.name ∧ Path.TakesExtension q.name := by
  have hdot := hd ▸ undelimited_of_mem_parts h hk hq
  obtain ⟨hne, hslash⟩ := name_of_mem_parts h hq
  exact ⟨hdot, Path.takesExtension_of_undotted hne hslash hdot⟩

end

/-! ## Files that are looked for -/

section
variable {c} {p : Path} {n : Text} (hrecognized : Discovery.isRecognized c p = true)
    (hn : p.fileName? = some n)
include hrecognized hn

/-- A file that is looked for shows one of the two extensions, be it an empty one after a dot. -/
theorem dotted_of_recognized : n = Path.dotted (Path.stem n) (Path.shown n) ∧ '.' ∉ Path.shown n ∧
    (Path.shown n = c.sourceExtension ∨ Path.shown n = c.compositeExtension) := by
  unfold Discovery.isRecognized at hrecognized
  rw [Path.extension?, hn] at hrecognized
  rcases Path.splitName_cases n with ⟨-, hsplit⟩ | ⟨s, e, hdot, -, he, hsplit⟩
  · simp [hsplit] at hrecognized
  · have hstem : Path.stem n = s := by rw [Path.stem, hsplit]
    have hshown : Path.shown n = e := by
      rw [Path.shown, hsplit]
      rfl
    rw [hstem, hshown]
    simp only [Option.bind_some, hsplit, Option.some.injEq, Bool.and_eq_true, Bool.or_eq_true,
      decide_eq_true_eq] at hrecognized
    exact ⟨hdot, he, hrecognized.2⟩

/-- It is called by the name of the benchmark and the extension of sources. -/
theorem dotted_of_simple {b : Benchmark} (h : ofPath c p = .ok b) (hk : b.kind = .simple) :
    b.name ≠ [] ∧ n = Path.dotted b.name c.sourceExtension ∧ '.' ∉ c.sourceExtension := by
  obtain ⟨hdot, hundotted, -⟩ := dotted_of_recognized hrecognized hn
  have hverdict := ofPath_verdict c hn
  rw [h] at hverdict
  cases hverdict with
  | composite => cases hk
  | simple hshown =>
    rw [hshown] at hdot hundotted
    exact ⟨Path.stem_ne_nil (Path.ne_nil_of_fileName? hn), hdot, hundotted⟩

theorem emptyPart_of_recognized {e : DefinitionError} (h : ofPath c p = .error e) : e = .emptyPart p := by
  obtain ⟨-, -, hextension⟩ := dotted_of_recognized hrecognized hn
  have hverdict := ofPath_verdict c hn
  rw [h] at hverdict
  cases hverdict with
  | emptyPart => rfl
  | unsupported hs hc =>
    rcases hextension with hextension | hextension
    · exact absurd hextension hs
    · exact absurd hextension hc

end

/-! ## From names to parts -/

structure Lists (p : Path) (b : Benchmark) : Prop where
  fileName : p.fileName? = some (Path.dotted b.name c.compositeExtension)
  joined : Text.joinWith [c.compositeDelimiter] (b.parts.map Part.name) = b.name
  parts_ne_nil : b.parts ≠ []
  name_ne_nil : ∀ q ∈ b.parts, q.name ≠ []
  undelimited : ∀ q ∈ b.parts, c.compositeDelimiter ∉ q.name
  shim_iff : ∀ q ∈ b.parts, q = .shim q.name ↔ c.shimSuffix <:+ q.name

section
variable {c} {p : Path} {b : Benchmark}

theorem parts_of_simple (h : ofPath c p = .ok b) (hk : b.kind = .simple) : b.parts = [.source b.name] := by
  obtain ⟨n, -, hverdict⟩ := exists_verdict h
  cases hverdict with
  | simple => rfl
  | composite => cases hk

theorem lists_of_composite (hne : c.compositeExtension ≠ []) (h : ofPath c p = .ok b)
    (hk : b.kind = .composite) :
    Lists c p b := by
  have hparts := parts_ne_nil h
  have hnames := fun q hq => (name_of_mem_parts h (q := q) hq).1
  have hpieces := fun q hq => undelimited_of_mem_parts h hk (q := q) hq
  obtain ⟨n, hn, hverdict⟩ := exists_verdict h
  cases hverdict with
  | simple => cases hk
  | composite hs hext hempty =>
    refine ⟨?_, ?_, hparts, hnames, hpieces, fun q hq => ?_⟩
    · dsimp only
      rw [← hext, ← Path.eq_dotted_of_shown (by rw [hext]; exact hne)]
      exact hn
    · dsimp only
      rw [Part.map_name_ofName]
      exact Text.joinWith_splitOn _ _
    · obtain ⟨name, -, rfl⟩ := List.mem_map.1 hq
      rw [Part.name_ofName]
      exact Part.ofName_eq_shim_iff

end

/-! ## From parts to names -/

structure MarksComposites : Prop where
  extension : Path.IsExtension c.compositeExtension
  undotted : '.' ∉ c.compositeExtension
  ne_source : c.compositeExtension ≠ c.sourceExtension
  delimiter : c.compositeDelimiter ≠ '/'

def markerName (names : List Text) : Text :=
  Path.dotted (Text.joinWith [c.compositeDelimiter] names) c.compositeExtension

/-- What a file is that is called as the marker of the given parts. Without a name before it, the
extension is a file name of its own. -/
structure Marks (names : List Text) (p : Path) : Prop where
  accepted : [] ∉ names → ∃ b, ofPath c p = .ok b ∧ b.kind = .composite ∧
    b.name = Text.joinWith [c.compositeDelimiter] names ∧ b.parts.map Part.name = names
  rejected : [] ∈ names → names ≠ [[]] → ofPath c p = .error (.emptyPart p)
  bare : names = [[]] → ofPath c p =
    if c.sourceExtension = [] then
      .ok ⟨'.' :: c.compositeExtension, p, .simple, [.source ('.' :: c.compositeExtension)]⟩
    else .error (.unsupportedExtension p [])

section
variable {c} {names : List Text}

theorem joinWith_ne_nil (hne : names ≠ []) (hbare : names ≠ [[]]) :
    Text.joinWith [c.compositeDelimiter] names ≠ [] := by
  match names with
  | [] => exact absurd rfl hne
  | [n] =>
    intro h
    have hn : n = [] := by simpa [Text.joinWith] using h
    exact hbare (by rw [hn])
  | n :: m :: names =>
    rw [Text.joinWith_cons_cons]
    simp

theorem noSlash_joinWith (hc : MarksComposites c) (hnames : ∀ n ∈ names, '/' ∉ n) :
    '/' ∉ Text.joinWith [c.compositeDelimiter] names := by
  intro h
  rcases Text.mem_joinWith h with h | ⟨n, hn, h⟩
  · exact hc.delimiter (List.mem_singleton.1 h).symm
  · exact hnames n hn h

theorem isName_markerName (hc : MarksComposites c) (hne : names ≠ []) (hnames : ∀ n ∈ names, '/' ∉ n) :
    Path.IsName (markerName c names) := by
  by_cases hbare : names = [[]]
  · subst hbare
    refine ⟨List.cons_ne_nil _ _, ?_, fun h => ?_, fun h => ?_⟩
    · simpa [markerName, Path.dotted, Text.joinWith] using hc.extension.noSlash
    · exact hc.extension.ne_nil (List.cons.inj h).2
    · have hdot : c.compositeExtension = ['.'] := (List.cons.inj h).2
      exact hc.undotted (by rw [hdot]; exact List.mem_singleton_self _)
  · exact Path.isName_dotted (joinWith_ne_nil hne hbare) (noSlash_joinWith hc hnames) hc.extension

/-- A name before the extension is what the marker shows to be taken apart. -/
theorem marks_of_named (hc : MarksComposites c) (hne : names ≠ []) (hbare : names ≠ [[]])
    (hnames : ∀ n ∈ names, c.compositeDelimiter ∉ n) {p : Path}
    (hp : p.fileName? = some (markerName c names)) :
    Marks c names p := by
  have hjoin := joinWith_ne_nil (c := c) hne hbare
  have hpieces : piecesOf c (Text.joinWith [c.compositeDelimiter] names) = names :=
    Text.splitOn_joinWith hne hnames
  have hverdict := ofPath_verdict c hp
  rw [markerName, Path.stem_dotted hjoin hc.undotted, Path.shown_dotted hjoin hc.undotted] at hverdict
  generalize hr : ofPath c p = r at hverdict
  cases hverdict with
  | simple h => exact absurd h hc.ne_source
  | emptyPart _ _ hempty =>
    rw [hpieces] at hempty
    exact ⟨fun h => absurd hempty h, fun _ _ => hr, fun h => absurd h hbare⟩
  | composite _ _ hempty =>
    rw [hpieces] at hempty hr
    exact ⟨fun _ => ⟨_, hr, rfl, rfl, Part.map_name_ofName _ _⟩, fun h => absurd h hempty,
      fun h => absurd h hbare⟩
  | unsupported _ h => exact absurd rfl h

theorem marks_of_bare (hc : MarksComposites c) {p : Path} (hp : p.fileName? = some (markerName c [[]])) :
    Marks c [[]] p := by
  refine ⟨fun h => absurd (List.mem_singleton_self _) h, fun _ h => absurd rfl h, fun _ => ?_⟩
  have hsplit : Path.splitName (markerName c [[]]) = ('.' :: c.compositeExtension, none) :=
    Path.splitName_of_not_mem hc.undotted
  have hverdict := ofPath_verdict c hp
  rw [Path.stem, Path.shown, hsplit] at hverdict
  dsimp only [Option.getD_none] at hverdict
  generalize ofPath c p = r at hverdict ⊢
  cases hverdict with
  | simple h => rw [if_pos h.symm]
  | emptyPart _ h | composite _ h => exact absurd h.symm hc.extension.ne_nil
  | unsupported h => rw [if_neg (Ne.symm h)]

end

/-- **Names of composites.** The parts of a composite are what its name lists, and the marker that
is called by given names is the composite of exactly these, in their order. It is refused if one of
the names is empty, but for the extension alone, which is not taken for one. A simple benchmark is
its own part. -/
theorem composite_names (c : Config) :
    (∀ p b, ofPath c p = .ok b → b.kind = .simple → b.parts = [.source b.name]) ∧
      (c.compositeExtension ≠ [] → ∀ p b, ofPath c p = .ok b → b.kind = .composite → Lists c p b) ∧
      (MarksComposites c → ∀ names : List Text, names ≠ [] →
        (∀ n ∈ names, '/' ∉ n ∧ c.compositeDelimiter ∉ n) →
        (∀ directory : Path, (directory.join ⟨markerName c names⟩).fileName? = some (markerName c names)) ∧
          ∀ p : Path, p.fileName? = some (markerName c names) → Marks c names p) := by
  refine ⟨fun _ _ => parts_of_simple, fun hne _ _ => lists_of_composite hne,
    fun hc names hne hnames => ⟨fun directory => ?_, ?_⟩⟩
  · exact Path.fileName?_join directory (isName_markerName hc hne fun n hn => (hnames n hn).1)
  · intro p hp
    by_cases hbare : names = [[]]
    · subst hbare
      exact marks_of_bare hc hp
    · exact marks_of_named hc hne hbare (fun n hn => (hnames n hn).2) hp

theorem marksComposites_default : MarksComposites {} :=
  ⟨⟨by decide, by decide⟩, by decide, by decide, by decide⟩

theorem composite_names_ordered :
    let b : Benchmark :=
      ⟨"a.b_grate.c", "/bench/a.b_grate.c.grate", .composite, [.source "a", .shim "b_grate", .source "c"]⟩
    let s : Benchmark := ⟨"geteuid_grate", "/bench/geteuid_grate.c", .simple, [.source "geteuid_grate"]⟩
    let names : List Text := ["a", "b_grate", "c"]
    ofPath {} "/bench/geteuid_grate.c" = .ok s ∧ s.kind = .simple ∧ s.parts = [.source s.name] ∧
      ({} : Config).compositeExtension ≠ [] ∧
      ofPath {} "/bench/a.b_grate.c.grate" = .ok b ∧ b.kind = .composite ∧
      Lists {} "/bench/a.b_grate.c.grate" b ∧ MarksComposites {} ∧ names ≠ [] ∧
      (∀ n ∈ names, '/' ∉ n ∧ '.' ∉ n) ∧
      Path.fileName? "/bench/a.b_grate.c.grate" = some (markerName {} names) ∧
      Marks {} names "/bench/a.b_grate.c.grate" := by
  intro b s names
  have hb : ofPath {} "/bench/a.b_grate.c.grate" = .ok b := rfl
  have hs : ofPath {} "/bench/geteuid_grate.c" = .ok s := rfl
  have hnames : ∀ n ∈ names, '/' ∉ n ∧ '.' ∉ n := by decide
  have hfile : Path.fileName? "/bench/a.b_grate.c.grate" = some (markerName {} names) := rfl
  obtain ⟨hsimple, hlists, hmarks⟩ := composite_names {}
  exact ⟨hs, rfl, hsimple _ s hs rfl, by decide, hb, rfl, hlists (by decide) _ b hb rfl,
    marksComposites_default, by decide,
    hnames, hfile, (hmarks marksComposites_default names (by decide) hnames).2 _ hfile⟩

/-- The marker of one empty part is called by the extension alone. It is refused, but not for the
empty part. -/
theorem bare_marker_unsupported :
    MarksComposites {} ∧ markerName {} [[]] = ".grate" ∧
      ofPath {} "tests/benchmarks/.grate" = .error (.unsupportedExtension "tests/benchmarks/.grate" []) ∧
      ofPath {} "tests/benchmarks/.grate" ≠ .error (.emptyPart "tests/benchmarks/.grate") := by
  have hrefused : ofPath {} "tests/benchmarks/.grate" =
      .error (.unsupportedExtension "tests/benchmarks/.grate" []) := rfl
  refine ⟨marksComposites_default, rfl, hrefused, fun h => ?_⟩
  rw [hrefused] at h
  cases h

end

end Benchmark

end TriBench
