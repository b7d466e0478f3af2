import TriBench.Proofs.Benchmark.Names
import TriBench.Proofs.Build.Composite

/-!
# The files of parts

The source and the module of a part are named by the stem of the part, so that whatever follows its
last dot is lost. Main statement: `parts_named_by_stem`. With dots as delimiters no part has one.
-/

namespace TriBench

namespace Build

section
variable {σ : Type} (st : Setting σ)

def sourceFile (name : Text) : Path :=
  st.config.benchmarkDirectory.join ⟨Path.dotted (Path.stem name) st.config.sourceExtension⟩

def moduleFile (name : Text) : Path := ⟨Path.dotted (Path.stem name) st.config.moduleExtension⟩

/-- If the extension of sources had a dot, modules would keep a piece of it. -/
structure PlainExtensions : Prop where
  source : Path.IsExtension st.config.sourceExtension
  module : Path.IsExtension st.config.moduleExtension
  undotted : '.' ∉ st.config.sourceExtension

def NamedLog : Part → Ending BuildError Artifact → List Call → Prop
  | .source n => Act.Gives st (sandboxCommand st (sourceFile st n)) fun answer =>
      (answer.mapError (.toolchain (sourceFile st n))).map fun _ => ⟨.sandbox, moduleFile st n⟩
  | .shim n => fun r _ => ∀ a, r = .ok (.ok a) → a = ⟨.sandboxShim, moduleFile st n⟩

def artifactOf (p : Part) : Artifact := ⟨p.target, moduleFile st p.name⟩

section
variable {st} {n m : Text}

/-! ## The files by their stems -/

theorem dotted_eq_iff {s s' e : Text} : Path.dotted s e = Path.dotted s' e ↔ s = s' := by
  unfold Path.dotted
  constructor
  · exact List.append_cancel_right
  · rintro rfl
    rfl

theorem moduleFile_eq_iff : moduleFile st n = ⟨Path.dotted n st.config.moduleExtension⟩ ↔ '.' ∉ n.tail := by
  rw [moduleFile, Path.mk.injEq, dotted_eq_iff, Path.stem_eq_self_iff]

section
variable (hext : PlainExtensions st) (hn : Path.TakesExtension n) (hm : Path.TakesExtension m)
include hext hn

theorem sourceFile_eq_iff :
    sourceFile st n = st.config.benchmarkDirectory.join ⟨Path.dotted n st.config.sourceExtension⟩ ↔
      '.' ∉ n.tail := by
  have hname := hn.isName_dotted hext.source
  have hdotted : '/' ∉ Path.dotted n st.config.sourceExtension :=
    (Path.isName_dotted hn.ne_nil hn.noSlash hext.source).noSlash
  rw [sourceFile, Path.join_eq _ hname.noSlash, Path.join_eq _ hdotted, Path.mk.injEq,
    List.append_cancel_left_eq, dotted_eq_iff, Path.stem_eq_self_iff]

theorem components_sourceFile : (sourceFile st n).components =
    st.config.benchmarkDirectory.components ++
      [.name (Path.dotted (Path.stem n) st.config.sourceExtension)] :=
  Path.components_join _ (hn.isName_dotted hext.source)

theorem components_moduleFile :
    (moduleFile st n).components = [.name (Path.dotted (Path.stem n) st.config.moduleExtension)] :=
  Path.components_name (hn.isName_dotted hext.module)

theorem sourceOf_eq : sourceOf st n = sourceFile st n := by
  unfold sourceOf sourceFile
  rw [Path.replaceExtension_join _ hn hext.source.noSlash, Path.suffixed_of_ne_nil hext.source.ne_nil]

theorem stripPrefix?_sourceFile : (sourceFile st n).stripPrefix? st.config.benchmarkDirectory =
    some ⟨Path.dotted (Path.stem n) st.config.sourceExtension⟩ :=
  Path.stripPrefix?_join _ (hn.isName_dotted hext.source)

theorem replaceExtension_source :
    Path.replaceExtension ⟨Path.dotted (Path.stem n) st.config.sourceExtension⟩ st.config.moduleExtension =
      moduleFile st n := by
  rw [Path.replaceExtension_name (hn.dotted hext.source hext.undotted) hext.module,
    Path.stem_dotted (Path.stem_ne_nil hn.ne_nil) hext.undotted]
  rfl

include hm

theorem same_source_iff :
    (sourceFile st n).components = (sourceFile st m).components ↔ Path.stem n = Path.stem m := by
  rw [components_sourceFile hext hn, components_sourceFile hext hm,
    List.append_cancel_left_eq, List.cons.injEq, Path.Component.name.injEq, dotted_eq_iff, and_iff_left rfl]

theorem same_module_iff :
    (moduleFile st n).components = (moduleFile st m).components ↔ Path.stem n = Path.stem m := by
  rw [components_moduleFile hext hn, components_moduleFile hext hm, List.cons.injEq,
    Path.Component.name.injEq, dotted_eq_iff, and_iff_left rfl]

end

/-! ## The builds -/

section
variable (hext : PlainExtensions st)
include hext

theorem source_namedLog (hn : Path.TakesExtension n) {s : Session σ} {r : Ending BuildError Artifact}
    {new : List Call} (h : PartLog st s (.source n) r new) : NamedLog st (.source n) r new := by
  cases h with
  | slash _ h => exact absurd h hext.source.noSlash
  | source h =>
    rw [sourceOf_eq hext hn] at h
    cases h with
    | outside h => rw [stripPrefix?_sourceFile hext hn] at h; cases h
    | fault hf => exact .inr ⟨_, hf, rfl, rfl⟩
    | failed _ e => exact .inl ⟨.error e, rfl, rfl⟩
    | built h o =>
      rw [stripPrefix?_sourceFile hext hn] at h
      cases h
      rw [replaceExtension_source hext hn]
      exact .inl ⟨.ok o, rfl, rfl⟩

theorem shim_namedLog (hn : Path.TakesExtension n) {s : Session σ} {r : Ending BuildError Artifact}
    {new : List Call} (h : PartLog st s (.shim n) r new) : NamedLog st (.shim n) r new := by
  rintro a rfl
  cases h with
  | shim hfetch hs =>
    cases hs with
    | built hname o =>
      have hfile := fun p => Path.fileName?_join p hn.isName
      have hcases := Component.mem_of_fetched hfetch
      simp only [List.mem_cons, List.not_mem_nil, or_false] at hcases
      rcases hcases with rfl | rfl <;> rw [hfile] at hname <;> cases hname <;>
        rw [Path.replaceExtension_name hn hext.module] <;> rfl

theorem part_namedLog (p : Part) (hp : Path.TakesExtension p.name) : (part st p).Logs (NamedLog st p) := by
  intro s
  obtain ⟨new, hnew, hlog⟩ := part_logs st p s
  refine ⟨new, hnew, ?_⟩
  cases p with
  | source n => exact source_namedLog hext hp hlog
  | shim n => exact shim_namedLog hext hp hlog

theorem part_yields_artifact (p : Part) (hp : Path.TakesExtension p.name) :
    (part st p).Yields fun a _ => a = artifactOf st p := by
  intro s
  obtain ⟨new, hnew, hlog⟩ := part_namedLog hext p hp s
  refine ⟨new, hnew, fun a ha => ?_⟩
  cases p with
  | source n =>
    rcases hlog with ⟨answer, hr, -⟩ | ⟨f, -, hr, -⟩ <;> rw [ha] at hr
    · cases answer with
      | error e => cases hr
      | ok o => cases hr; rfl
    · cases hr
  | shim n => exact hlog a ha

theorem parts_yield_artifacts (ps : List Part) (hps : ∀ p ∈ ps, Path.TakesExtension p.name) :
    (parts st ps).Yields fun artifacts _ => artifacts = ps.map (artifactOf st) := by
  induction ps with
  | nil => exact .pure rfl
  | cons p ps ih =>
    refine (part_yields_artifact hext p (hps p (List.mem_cons_self ..))).bind fun a _ ha => ?_
    refine (ih fun q hq => hps q (List.mem_cons_of_mem _ hq)).bind fun artifacts _ hartifacts => .pure ?_
    rw [ha, hartifacts, List.map_cons]

end

end

/-- The parts are named by their stems: a part has the files of its own name iff it has no dot after its first
character, and two parts share their files iff they share their stems. -/
structure NamedByStem (b : Benchmark) : Prop where
  logs : ∀ p ∈ b.parts, (part st p).Logs (NamedLog st p)
  artifacts : (parts st b.parts).Yields fun artifacts _ => artifacts = b.parts.map (artifactOf st)
  source_iff : ∀ p ∈ b.parts, sourceFile st p.name =
    st.config.benchmarkDirectory.join ⟨Path.dotted p.name st.config.sourceExtension⟩ ↔ '.' ∉ p.name.tail
  module_iff : ∀ p ∈ b.parts,
    moduleFile st p.name = ⟨Path.dotted p.name st.config.moduleExtension⟩ ↔ '.' ∉ p.name.tail
  sameSource : ∀ p ∈ b.parts, ∀ q ∈ b.parts,
    (sourceFile st p.name).components = (sourceFile st q.name).components ↔
      Path.stem p.name = Path.stem q.name
  sameModule : ∀ p ∈ b.parts, ∀ q ∈ b.parts,
    (moduleFile st p.name).components = (moduleFile st q.name).components ↔
      Path.stem p.name = Path.stem q.name

theorem namedByStem {b : Benchmark} (hext : PlainExtensions st)
    (hnames : ∀ q ∈ b.parts, Path.TakesExtension q.name) :
    NamedByStem st b where
  logs q hq := part_namedLog hext q (hnames q hq)
  artifacts := parts_yield_artifacts hext b.parts hnames
  source_iff q hq := sourceFile_eq_iff hext (hnames q hq)
  module_iff _ _ := moduleFile_eq_iff
  sameSource q hq r hr := same_source_iff hext (hnames q hq) (hnames r hr)
  sameModule q hq r hr := same_module_iff hext (hnames q hq) (hnames r hr)

/-- With dots for delimiters every part has the files of its own name. -/
theorem parts_named_of_dots {p : Path} {b : Benchmark} (hb : Benchmark.ofPath st.config p = .ok b)
    (hk : b.kind = .composite) (hd : st.config.compositeDelimiter = '.') (hext : PlainExtensions st) :
    NamedByStem st b ∧ ∀ q ∈ b.parts, '.' ∉ q.name := by
  have hparts := fun q hq => Benchmark.undotted_of_mem_parts hb hk hd (q := q) hq
  exact ⟨namedByStem st hext fun q hq => (hparts q hq).2, fun q hq => (hparts q hq).1⟩

/-- **Parts are named by their stems.** Whatever the delimiter, each part of a benchmark that has a
stem other than a single dot is built from the source of its stem, and gives the module of its stem.
-/
theorem parts_named_by_stem (st : Setting σ) (p : Path) (b : Benchmark)
    (hb : Benchmark.ofPath st.config p = .ok b) (hext : PlainExtensions st)
    (hstem : ∀ q ∈ b.parts, Path.stem q.name ≠ ['.']) : NamedByStem st b := by
  refine namedByStem st hext fun q hq => ?_
  obtain ⟨hne, hslash⟩ := Benchmark.name_of_mem_parts hb hq
  exact ⟨hne, hslash, hstem q hq⟩

theorem plainExtensions_obliging : PlainExtensions (Setting.obliging { compositeDelimiter := '+' }) :=
  ⟨⟨by decide, by decide⟩, ⟨by decide, by decide⟩, by decide⟩

theorem parts_named_by_stem_plus :
    let st := Setting.obliging { compositeDelimiter := '+' }
    ∃ b, Benchmark.ofPath st.config "tests/benchmarks/a.x+b_grate.grate" = .ok b ∧ PlainExtensions st ∧
      (∀ q ∈ b.parts, Path.stem q.name ≠ ['.']) ∧ NamedByStem st b := by
  have hb : Benchmark.ofPath
      (Setting.obliging { compositeDelimiter := '+' }).config "tests/benchmarks/a.x+b_grate.grate" =
    .ok ⟨"a.x+b_grate", "tests/benchmarks/a.x+b_grate.grate", .composite,
      [.source "a.x", .shim "b_grate"]⟩ := rfl
  exact ⟨_, hb, plainExtensions_obliging,
    by decide, parts_named_by_stem _ _ _ hb plainExtensions_obliging (by decide)⟩

/-- Two parts that differ only after a dot are compiled from one source, which is that of neither
name, and their modules have one path. -/
theorem dotted_parts_share_files :
    let st := Setting.obliging { compositeDelimiter := '+' }
    ∃ b, Benchmark.ofPath st.config "tests/benchmarks/a.x+a.y.grate" = .ok b ∧ PlainExtensions st ∧
      b.parts = [.source "a.x", .source "a.y"] ∧
      let run := (parts st b.parts).run { files := .emptyAt [], tools := () }
      run.1 = .ok (.ok [⟨.sandbox, "a.cwasm"⟩, ⟨.sandbox, "a.cwasm"⟩]) ∧
      run.2.calls.map Call.command =
        [sandboxCommand st "tests/benchmarks/a.c", sandboxCommand st "tests/benchmarks/a.c"] ∧
      ("a.cwasm" : Path) ≠ "a.x.cwasm" ∧ ("tests/benchmarks/a.c" : Path) ≠ "tests/benchmarks/a.x.c" := by
  have hb : Benchmark.ofPath
      (Setting.obliging { compositeDelimiter := '+' }).config "tests/benchmarks/a.x+a.y.grate" =
    .ok ⟨"a.x+a.y", "tests/benchmarks/a.x+a.y.grate", .composite, [.source "a.x", .source "a.y"]⟩ := rfl
  exact ⟨_, hb, plainExtensions_obliging, rfl, rfl, rfl, by decide, by decide⟩

end

end Build

end TriBench
