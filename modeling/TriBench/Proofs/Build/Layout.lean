import TriBench.Proofs.Build.Confinement

/-!
# The layout of outputs

Below the sandbox root the outputs of simple benchmarks lie as their sources lie below the benchmark
directory: what stands before the extension of a source stays as it is, dots included. Main
statement: `outputs_mirror_layout`, from which no two benchmarks share an output.
-/

namespace TriBench

/-- What a path puts before a name is joined with it. -/
theorem Path.components_below (u : Path) {n : Text} (hn : IsName n) :
    components ⟨u.below ++ n⟩ = u.components ++ [.name n] := by
  rw [← join_eq u hn.noSlash, components_join u hn]

namespace Build

/-- A simple benchmark that a discovery has found. A name of dots alone could not stand without its
extension. -/
structure FoundSimple (c : Config) (p : Path) (b : Benchmark) : Prop where
  found : ∃ fs : FileSystem, fs.WellNamed ∧ ∃ prefixes paths,
    Discovery.discover fs c prefixes = .ok paths ∧ p ∈ paths
  benchmark : Benchmark.ofPath c p = .ok b
  simple : b.kind = .simple
  ne_here : b.name ≠ ['.']
  ne_up : b.name ≠ ['.', '.']

section
variable {σ : Type} (st : Setting σ)

/-- The program of the source that lies at `r` and its extension, seen from the benchmark directory. -/
def programAt (r : Text) : Path := st.config.sandboxRoot.join ⟨r⟩

def moduleAt (r : Text) : Path := ⟨Path.dotted r st.config.moduleExtension⟩

def LiesAt (b : Benchmark) (r : Text) : Prop :=
  b.path.stripPrefix? st.config.benchmarkDirectory = some ⟨Path.dotted r st.config.sourceExtension⟩

structure ProgramLiesAt (b : Benchmark) (r : Text) : Prop where
  absolute : (programAt st r).isAbsolute = true
  native : ∀ s : Session σ, HasRoom s.files (programAt st r) →
    (Build.native st b).LogsFrom s (Act.Gives st (nativeCommand st b.path (programAt st r))
      fun answer => (answer.mapError (BuildError.toolchain b.path)).map fun _ => ⟨.native, programAt st r⟩)
  noRoom : ∀ s : Session σ, ¬ HasRoom s.files (programAt st r) →
    ∃ e s', (Build.native st b).run s = (.ok (.error e), s') ∧ s'.calls = s.calls

structure ModuleLiesAt (b : Benchmark) (r : Text) : Prop where
  relative : (moduleAt st r).isAbsolute = false
  sandbox : (Build.sandbox st b).Logs (Act.Gives st (sandboxCommand st b.path)
    fun answer => (answer.mapError (BuildError.toolchain b.path)).map fun _ => ⟨.sandbox, moduleAt st r⟩)
  ne_program : (st.config.sandboxRoot.join (moduleAt st r)).components ≠ (programAt st r).components

/-! ## Where a source lies -/

structure Place (p : Path) (b : Benchmark) (u : Path) : Prop where
  path : b.path = p
  isName : Path.IsName b.name
  isFile : Path.IsName (Path.dotted b.name st.config.sourceExtension)
  undotted : '.' ∉ st.config.sourceExtension
  source : p.stripPrefix? st.config.benchmarkDirectory =
    some (u.join ⟨Path.dotted b.name st.config.sourceExtension⟩)
  pieces : ∃ folders, u.components = Path.named folders
  components : p.components = st.config.benchmarkDirectory.components ++
    (u.components ++ [.name (Path.dotted b.name st.config.sourceExtension)])

variable {st} {p q u v : Path} {b d : Benchmark} {r : Text}

theorem exists_place (hc : st.config.benchmarkDirectory.isAbsolute = true) (h : FoundSimple st.config p b) :
    ∃ u, Place st p b u := by
  obtain ⟨fs, hfs, prefixes, paths, hpaths, hp⟩ := h.found
  obtain ⟨hrecognized, start, -, q, n, hfound⟩ := Discovery.found_of_mem hfs hc hpaths hp
  obtain ⟨hne, rfl, hdot⟩ := Benchmark.dotted_of_simple hrecognized hfound.fileName?_eq h.benchmark h.simple
  obtain ⟨u, hstrip, hu⟩ := hfound.exists_stripPrefix? hc
  have hslash : '/' ∉ b.name := fun hmem => hfound.isName.noSlash (List.mem_append_left _ hmem)
  refine ⟨u, Benchmark.path_of_ofPath h.benchmark, ⟨hne, hslash, h.ne_here, h.ne_up⟩,
    hfound.isName, hdot, hstrip, ⟨_, hu⟩, ?_⟩
  · rw [hfound.path, Path.components_join q hfound.isName, hfound.components, hu, List.append_assoc]

/-! ## Where the outputs lie -/

theorem moduleAt_append (s n : Text) :
    moduleAt st (s ++ n) = ⟨s ++ Path.dotted n st.config.moduleExtension⟩ := by
  rw [moduleAt, Path.dotted, Path.dotted, List.append_assoc]

section
variable (h : Place st p b u)
include h

/-- With another extension the name stays in its directory. -/
theorem Place.replaceExtension_eq {e : Text} (he : '/' ∉ e) :
    (u.join ⟨Path.dotted b.name st.config.sourceExtension⟩).replaceExtension e =
      ⟨Path.suffixed (u.below ++ b.name) e⟩ := by
  have hrenamed : Path.renamed b.name e = Path.suffixed b.name e := if_neg h.isName.ne_here
  rw [Path.replaceExtension_dotted u h.isName.ne_nil h.isFile h.undotted he, hrenamed,
    Path.join_eq u (Path.noSlash_suffixed h.isName.noSlash he), Path.suffixed,
    Path.suffixed, List.append_assoc]

theorem Place.liesAt : LiesAt st b (u.below ++ b.name) := by
  rw [LiesAt, h.path, h.source, Path.join_eq u h.isFile.noSlash, Path.dotted, Path.dotted, List.append_assoc]

theorem Place.eq_of_liesAt (hr : LiesAt st b r) : r = u.below ++ b.name := by
  have hsource := h.liesAt.symm.trans hr
  rw [Option.some.injEq, Path.mk.injEq, dotted_eq_iff] at hsource
  exact hsource.symm

theorem Place.program?_eq : program? st b = some (programAt st (u.below ++ b.name)) := by
  rw [program?, h.path, h.source, Option.map_some, h.replaceExtension_eq List.not_mem_nil, Path.suffixed_nil]
  rfl

theorem Place.components_join {base : Path} (hbase : base.text ≠ []) {n : Text} (hn : Path.IsName n) :
    (base.join ⟨u.below ++ n⟩).components = base.components ++ (u.components ++ [.name n]) := by
  obtain ⟨folders, hfolders⟩ := h.pieces
  have hnamed : Path.components ⟨u.below ++ n⟩ = Path.named (folders ++ [n]) := by
    rw [Path.components_below u hn, hfolders, Path.named_append,
      Path.named_singleton hn.isIdle_eq, hn.ofPiece_eq]
  rw [Path.components_join_of_pieces hbase hnamed, Path.components_below u hn]

theorem Place.components_programAt (hroot : st.config.sandboxRoot.isAbsolute = true) :
    (programAt st (u.below ++ b.name)).components =
      st.config.sandboxRoot.components ++ (u.components ++ [.name b.name]) :=
  h.components_join (Path.ne_nil_of_isAbsolute hroot) h.isName

theorem Place.programLiesAt (hroot : st.config.sandboxRoot.isAbsolute = true) (hk : b.kind = .simple) :
    ProgramLiesAt st b (u.below ++ b.name) where
  absolute := Path.isAbsolute_join hroot _
  native _ hroom := native_logs_of_room hk h.program?_eq hroom
  noRoom _ hroom := native_run_of_no_room hk fun program hp => by
    rw [h.program?_eq] at hp
    cases hp
    exact hroom

section
variable (hext : Path.IsExtension st.config.moduleExtension)
include hext

theorem Place.module?_eq : module? st b = some (moduleAt st (u.below ++ b.name)) := by
  rw [module?, h.path, h.source, Option.map_some, h.replaceExtension_eq hext.noSlash,
    Path.suffixed_of_ne_nil hext.ne_nil]
  rfl

theorem Place.isName_module : Path.IsName (Path.dotted b.name st.config.moduleExtension) :=
  Path.isName_dotted h.isName.ne_nil h.isName.noSlash hext

theorem Place.components_moduleAt : (moduleAt st (u.below ++ b.name)).components =
    u.components ++ [.name (Path.dotted b.name st.config.moduleExtension)] := by
  rw [moduleAt_append, Path.components_below u (h.isName_module hext)]

theorem Place.moduleLiesAt (hroot : st.config.sandboxRoot.isAbsolute = true) (hk : b.kind = .simple) :
    ModuleLiesAt st b (u.below ++ b.name) where
  relative := by
    obtain ⟨folders, hfolders⟩ := h.pieces
    apply Path.isAbsolute_eq_false
    rw [h.components_moduleAt hext, hfolders, List.mem_append, List.mem_singleton, not_or]
    exact ⟨Path.root_not_mem_named folders, by simp⟩
  sandbox := sandbox_logs hk (h.module?_eq hext)
  ne_program := by
    intro heq
    rw [moduleAt_append, h.components_join (Path.ne_nil_of_isAbsolute hroot) (h.isName_module hext),
      h.components_programAt hroot, List.append_cancel_left_eq, List.append_cancel_left_eq] at heq
    have hlength := congrArg List.length (Path.Component.name.inj (List.cons.inj heq).1)
    simp [Path.dotted] at hlength

end

end

/-! ## Different sources -/

/-- Sources in one directory and of one name are the same. -/
theorem Place.components_congr (h : Place st p b u) (h' : Place st q d v)
    (heq : u.components ++ [Path.Component.name b.name] = v.components ++ [.name d.name]) :
    p.components = q.components := by
  obtain ⟨hu, hname⟩ := List.append_inj' heq rfl
  rw [h.components, h'.components, hu, Path.Component.name.inj (List.cons.inj hname).1]

theorem Place.components_of_program (hroot : st.config.sandboxRoot.isAbsolute = true) (h : Place st p b u)
    (h' : Place st q d v)
    (heq : (programAt st (u.below ++ b.name)).components = (programAt st (v.below ++ d.name)).components) :
    p.components = q.components := by
  rw [h.components_programAt hroot, h'.components_programAt hroot] at heq
  exact h.components_congr h' (List.append_cancel_left heq)

theorem Place.components_of_module (hext : Path.IsExtension st.config.moduleExtension) (h : Place st p b u)
    (h' : Place st q d v)
    (heq : (moduleAt st (u.below ++ b.name)).components = (moduleAt st (v.below ++ d.name)).components) :
    p.components = q.components := by
  rw [h.components_moduleAt hext, h'.components_moduleAt hext] at heq
  obtain ⟨hu, hname⟩ := List.append_inj' heq rfl
  refine h.components_congr h' ?_
  rw [hu, dotted_eq_iff.1 (Path.Component.name.inj (List.cons.inj hname).1)]

end

/-- **The layout of outputs.** The program of a simple benchmark that has been found lies below the
sandbox root where its source lies below the benchmark directory, without the extension of sources,
and so does its module with that of modules. Benchmarks that are found under different paths share
neither their programs nor their modules. -/
theorem outputs_mirror_layout {σ : Type} (st : Setting σ) (given : Config) (working : Path)
    (hworking : working.isAbsolute = true) (hconfig : given.resolve working = .ok st.config) :
    (∀ p b, FoundSimple st.config p b → ∃ r, LiesAt st b r ∧ ProgramLiesAt st b r ∧
      (Path.IsExtension st.config.moduleExtension → ModuleLiesAt st b r)) ∧
    ∀ p b r q d t, FoundSimple st.config p b → FoundSimple st.config q d → LiesAt st b r → LiesAt st d t →
      p.components ≠ q.components → (programAt st r).components ≠ (programAt st t).components ∧
        (Path.IsExtension st.config.moduleExtension →
          (moduleAt st r).components ≠ (moduleAt st t).components) := by
  obtain ⟨hc, hroot⟩ := Config.isAbsolute_of_resolve hworking hconfig
  constructor
  · intro p b hb
    obtain ⟨u, hu⟩ := exists_place hc hb
    exact ⟨_, hu.liesAt, hu.programLiesAt hroot hb.simple, fun hext => hu.moduleLiesAt hext hroot hb.simple⟩
  · intro p b r q d t hb hd hr ht hne
    obtain ⟨u, hu⟩ := exists_place hc hb
    obtain ⟨v, hv⟩ := exists_place hc hd
    rw [hu.eq_of_liesAt hr, hv.eq_of_liesAt ht]
    exact ⟨fun heq => hne (hu.components_of_program hroot hv heq),
      fun hext heq => hne (hu.components_of_module hext hv heq)⟩

def nested : FileSystem :=
  .ofNodes ["w"] [(["w"], .directory), (["w", "tests"], .directory),
    (["w", "tests", "benchmarks"], .directory),
    (["w", "tests", "benchmarks", "a.x.c"], .file [] false),
    (["w", "tests", "benchmarks", "sub"], .directory),
    (["w", "tests", "benchmarks", "sub", "a.x.c"], .file [] false)]

theorem outputs_mirror_layout_nested :
    let st := Setting.obliging inWork
    let b : Benchmark := ⟨"a.x", "/w/tests/benchmarks/a.x.c", .simple, [.source "a.x"]⟩
    let d : Benchmark := ⟨"a.x", "/w/tests/benchmarks/sub/a.x.c", .simple, [.source "a.x"]⟩
    ("/w" : Path).isAbsolute = true ∧ Config.resolve "/w" {} = .ok st.config ∧
      FoundSimple st.config b.path b ∧
      FoundSimple st.config d.path d ∧ LiesAt st b "a.x" ∧ LiesAt st d "sub/a.x" ∧
      b.path.components ≠ d.path.components ∧
      Path.IsExtension st.config.moduleExtension ∧
      (∃ r, LiesAt st d r ∧ ProgramLiesAt st d r ∧ ModuleLiesAt st d r) ∧
      (programAt st "a.x").components ≠ (programAt st "sub/a.x").components ∧
      (moduleAt st "a.x").components ≠ (moduleAt st "sub/a.x").components := by
  intro st b d
  have hfs : nested.WellNamed := by decide
  have hpaths : Discovery.discover nested inWork ["sub/", "a"] = .ok [b.path, d.path] := by cbv
  have hb : FoundSimple st.config b.path b :=
    ⟨⟨nested, hfs, _, _, hpaths, List.mem_cons_self ..⟩, rfl, rfl, by decide, by decide⟩
  have hd : FoundSimple st.config d.path d :=
    ⟨⟨nested, hfs, _, _, hpaths, List.mem_cons_of_mem _ (List.mem_singleton_self _)⟩, rfl,
      rfl, by decide, by decide⟩
  have hext : Path.IsExtension st.config.moduleExtension := ⟨by decide, by decide⟩
  have hne : b.path.components ≠ d.path.components := by decide
  obtain ⟨hlies, hdistinct⟩ := outputs_mirror_layout st {} "/w" rfl resolve_inWork
  obtain ⟨r, hr, hprogram, hmodule⟩ := hlies _ d hd
  obtain ⟨hprograms, hmodules⟩ := hdistinct _ b "a.x" _ d "sub/a.x" hb hd rfl rfl hne
  exact ⟨rfl, resolve_inWork, hb, hd, rfl, rfl, hne, hext, ⟨r, hr, hprogram, hmodule hext⟩,
    hprograms, hmodules hext⟩

end Build

end TriBench
