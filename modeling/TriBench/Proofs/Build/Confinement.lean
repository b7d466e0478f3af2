import Mathlib
import TriBench.Proofs.Build.Modules
import TriBench.Proofs.Build.Simple
import TriBench.Proofs.Config.Resolved
import TriBench.Proofs.Discovery.Found

/-!
# Where outputs go

A native program is placed below the sandbox root by the folders that a prefix has led through, and
its module is named by them. Main statement: `outputs_confined_iff`, they stay there iff no folder
leads upwards and the benchmark is not called by dots alone.
-/

namespace TriBench

namespace Path

/-- By names alone, and at least one of them. -/
def IsBelow (p root : Path) : Prop :=
  ∃ names : List Text, names ≠ [] ∧ p.components = root.components ++ names.map .name

def IsNames (p : Path) : Prop := ∃ names : List Text, names ≠ [] ∧ p.components = names.map .name

theorem up_mem_named {pieces : List Text} : .up ∈ named pieces ↔ ['.', '.'] ∈ pieces := by
  unfold named
  rw [List.mem_map]
  constructor
  · rintro ⟨x, hx, hup⟩
    unfold Component.ofPiece at hup
    split at hup
    · rename_i hx'
      rw [← hx']
      exact (List.mem_filter.1 hx).1
    · cases hup
  · intro h
    exact ⟨['.', '.'], List.mem_filter.2 ⟨h, rfl⟩, rfl⟩

theorem exists_names {pieces : List Text} (h : ['.', '.'] ∉ pieces) :
    named pieces = (pieces.filter fun piece => !isIdle piece).map .name := by
  refine List.map_congr_left fun x hx => if_neg ?_
  rintro rfl
  exact h (List.mem_filter.1 hx).1

theorem named_eq_names_iff {pieces : List Text} {x : Text} (hx : isIdle x = false) :
    (∃ names : List Text, names ≠ [] ∧ named (pieces ++ [x]) = names.map .name) ↔
      ['.', '.'] ∉ pieces ++ [x] := by
  constructor
  · rintro ⟨names, -, hnames⟩ h
    have hup := up_mem_named.2 h
    rw [hnames] at hup
    obtain ⟨n, -, hn⟩ := List.mem_map.1 hup
    cases hn
  · intro h
    refine ⟨_, ?_, exists_names h⟩
    simp [hx]

end Path

namespace Discovery

def Descends (start : Text) : Prop := ['.', '.'] ∉ folders start

theorem descends_of_mem_starts {prefixes : List Text} (h : ∀ s ∈ prefixes, '/' ∉ s) {start : Text}
    (hs : start ∈ starts prefixes) :
    Descends start := by
  rw [Descends, folders_of_no_slash (noSlash_of_mem_starts h hs)]
  exact List.not_mem_nil

end Discovery

namespace Build

section
variable {σ : Type} {st : Setting σ} {start : Text} {p q : Path} {n : Text}

/-- A benchmark that has been found, as it is seen from the benchmark directory. -/
theorem exists_relative (hc : st.config.benchmarkDirectory.isAbsolute = true)
    (hfound : Discovery.Found st.config start p q n) {s old : Text} (hn : n = Path.dotted s old) (hs : s ≠ [])
    (hold : '.' ∉ old) :
    ∃ rel, p.stripPrefix? st.config.benchmarkDirectory = some rel ∧ ∀ e : Text, '/' ∉ e →
      (rel.replaceExtension e).components = Path.named (Discovery.folders start ++ [Path.renamed s e]) := by
  subst hn
  have hname := hfound.isName
  obtain ⟨u, hstrip, hu⟩ := hfound.exists_stripPrefix? hc
  refine ⟨_, hstrip, fun e he => ?_⟩
  have hslash : '/' ∉ s := fun h => hname.noSlash (List.mem_append_left _ h)
  have hidle := Path.isIdle_renamed (e := e) hs
  rw [Path.replaceExtension_dotted u hs hname hold he,
    Path.components_join_piece u (Path.noSlash_renamed hslash he) hidle, hu,
    Path.named_append, Path.named_singleton hidle]

variable (st start) in
structure Outputs (b : Benchmark) (program module : Path) : Prop where
  native : ∀ s : Session σ, HasRoom s.files program →
    (Build.native st b).LogsFrom s (Act.Gives st (nativeCommand st b.path program)
      fun answer => (answer.mapError (BuildError.toolchain b.path)).map fun _ => ⟨.native, program⟩)
  noRoom : ∀ s : Session σ, ¬ HasRoom s.files program →
    ∃ e s', (Build.native st b).run s = (.ok (.error e), s') ∧ s'.calls = s.calls
  sandbox : (Build.sandbox st b).Logs (Act.Gives st (sandboxCommand st b.path)
      fun answer => (answer.mapError (BuildError.toolchain b.path)).map fun _ => ⟨.sandbox, module⟩)
  program_iff : program.IsBelow st.config.sandboxRoot ↔
    Discovery.Descends start ∧ b.name ≠ ['.'] ∧ b.name ≠ ['.', '.']
  /-- Two dots are a stem like any other, as long as an extension follows them. -/
  module_iff : '/' ∉ st.config.moduleExtension → (module.IsNames ↔
    Discovery.Descends start ∧ b.name ≠ ['.'] ∧ (b.name = ['.', '.'] → st.config.moduleExtension ≠ []))

theorem not_up_mem_iff {s e : Text} (hs : s ≠ []) :
    ['.', '.'] ∉ Discovery.folders start ++ [Path.renamed s e] ↔
    Discovery.Descends start ∧ s ≠ ['.'] ∧ (s = ['.', '.'] → e ≠ []) := by
  rw [List.mem_append, List.mem_singleton, not_or, eq_comm, Path.renamed_eq_up_iff hs, not_or, not_and]
  rfl

theorem outputs_of_found (hc : st.config.benchmarkDirectory.isAbsolute = true)
    (hroot : st.config.sandboxRoot.isAbsolute = true) (hfound : Discovery.Found st.config start p q n)
    (hrecognized : Discovery.isRecognized st.config p = true) {b : Benchmark}
    (hb : Benchmark.ofPath st.config p = .ok b) (hk : b.kind = .simple) :
    ∃ program module, Outputs st start b program module := by
  obtain ⟨hs, hn, hold⟩ := Benchmark.dotted_of_simple hrecognized hfound.fileName?_eq hb hk
  obtain ⟨rel, hrel, hcomponents⟩ := exists_relative hc hfound hn hs hold
  rw [← Benchmark.path_of_ofPath hb] at hrel
  have hprogram := program?_of_inside hrel
  have hmodule := module?_of_inside hrel
  refine ⟨_, _, fun s => native_logs_of_room hk hprogram, fun s hroom => ?_,
    sandbox_logs hk hmodule, ?_, fun hslash => ?_⟩
  · refine native_run_of_no_room hk fun program hp => ?_
    rw [hprogram] at hp
    cases hp
    exact hroom
  · have hbelow :=
      Path.components_join_of_pieces (Path.ne_nil_of_isAbsolute hroot) (hcomponents [] List.not_mem_nil)
    unfold Path.IsBelow
    rw [hbelow, hcomponents [] List.not_mem_nil]
    simp only [List.append_cancel_left_eq]
    rw [Path.named_eq_names_iff (Path.isIdle_renamed hs), not_up_mem_iff hs]
    simp
  · unfold Path.IsNames
    rw [hcomponents _ hslash, Path.named_eq_names_iff (Path.isIdle_renamed hs), not_up_mem_iff hs]

end

/-- **Outputs and the sandbox root.** The program of a simple benchmark that has been found is put
below the sandbox root, and its module is named from there, iff the prefix that has led to it names
no folder upwards and the name of the benchmark is more than dots. Without slashes in the prefixes
there are no folders. -/
theorem outputs_confined_iff {σ : Type} (st : Setting σ) (given : Config) (working : Path)
    (hworking : working.isAbsolute = true) (hconfig : given.resolve working = .ok st.config)
    (fs : FileSystem) (hfs : fs.WellNamed) (prefixes : List Text) (paths : List Path)
    (hpaths : Discovery.discover fs st.config prefixes = .ok paths) (p : Path) (hp : p ∈ paths)
    (b : Benchmark) (hb : Benchmark.ofPath st.config p = .ok b) (hk : b.kind = .simple) :
    ∃ start ∈ Discovery.starts prefixes, ((∀ s ∈ prefixes, '/' ∉ s) → Discovery.Descends start) ∧
      ∃ program module, Outputs st start b program module := by
  obtain ⟨hc, hroot⟩ := Config.isAbsolute_of_resolve hworking hconfig
  obtain ⟨hrecognized, start, hstart, q, n, hfound⟩ := Discovery.found_of_mem hfs hc hpaths hp
  exact ⟨start, hstart, fun hslash => Discovery.descends_of_mem_starts hslash hstart,
    outputs_of_found hc hroot hfound hrecognized hb hk⟩

def besides : FileSystem :=
  .ofNodes ["w"] [(["w"], .directory), (["w", "tests"], .directory), (["w", "tests", "x.c"], .file [] false),
    (["w", "tests", "benchmarks"], .directory), (["w", "tests", "benchmarks", "a.c"], .file [] false)]

def inWork : Config where
  benchmarkDirectory := "/w/tests/benchmarks"
  sandboxRoot := "/w/lindfs"
  repository := { workingCopy := "/w/tests/lind-wasm-example-grates" }

theorem resolve_inWork : Config.resolve "/w" {} = .ok inWork := by cbv

theorem outputs_confined_iff_a :
    let st := Setting.obliging inWork
    let b : Benchmark := ⟨"a", "/w/tests/benchmarks/a.c", .simple, [.source "a"]⟩
    ("/w" : Path).isAbsolute = true ∧ Config.resolve "/w" {} = .ok st.config ∧ besides.WellNamed ∧
      Discovery.discover besides st.config ["a"] = .ok ["/w/tests/benchmarks/a.c"] ∧
      Benchmark.ofPath st.config "/w/tests/benchmarks/a.c" = .ok b ∧ b.kind = .simple ∧
      ∃ start ∈ Discovery.starts ["a"], ((∀ s ∈ [['a']], '/' ∉ s) → Discovery.Descends start) ∧
        ∃ program module, Outputs st start b program module := by
  have hconfig : Config.resolve "/w" {} = .ok inWork := rfl
  have hfs : besides.WellNamed := by decide
  have hpaths : Discovery.discover besides inWork ["a"] = .ok ["/w/tests/benchmarks/a.c"] := by cbv
  have hb : Benchmark.ofPath inWork "/w/tests/benchmarks/a.c" =
    .ok ⟨"a", "/w/tests/benchmarks/a.c", .simple, [.source "a"]⟩ := rfl
  exact ⟨rfl, hconfig, hfs, hpaths, hb, rfl,
    outputs_confined_iff (Setting.obliging inWork) {} "/w" rfl hconfig besides hfs
    ["a"] _ hpaths _ (List.mem_singleton_self _) _ hb rfl⟩

theorem native_obliging {c : Config} {b : Benchmark} {program : Path} (hk : b.kind = .simple)
    (hp : program? (Setting.obliging c) b = some program) {s : Session Unit}
    (hroom : HasRoom s.files program) :
    ((native (Setting.obliging c) b).run s).1 = .ok (.ok ⟨.native, program⟩) := by
  obtain ⟨r, s', hrun, -, hr⟩ := run_makeParent program BuildError.directory s
  rw [native_eq hk hp, Act.run_bind, hrun, hr.2 hroom]
  rfl

/-- A prefix that begins with two dots finds the source beside the benchmark directory, and its
program is put beside the sandbox root. -/
theorem program_beside_sandbox :
    let st := Setting.obliging inWork
    let b : Benchmark := ⟨"x", "/w/tests/benchmarks/../x.c", .simple, [.source "x"]⟩
    let s : Session Unit := { files := besides, tools := () }
    Config.resolve "/w" {} = .ok st.config ∧ besides.WellNamed ∧
      Discovery.discover besides st.config ["../x"] = .ok ["/w/tests/benchmarks/../x.c"] ∧
      Benchmark.ofPath st.config "/w/tests/benchmarks/../x.c" = .ok b ∧
      ((native st b).run s).1 = .ok (.ok ⟨.native, "/w/lindfs/../x"⟩) ∧
      ((sandbox st b).run s).1 = .ok (.ok ⟨.sandbox, "../x.cwasm"⟩) ∧
      ¬ Path.IsBelow "/w/lindfs/../x" st.config.sandboxRoot ∧ ¬ Path.IsNames "../x.cwasm" := by
  refine ⟨rfl, by decide, by cbv, rfl, ?_, rfl, ?_, ?_⟩
  · have hroom : (besides.makeDirectories "/w/lindfs/..").1 = .ok () := by cbv
    refine native_obliging rfl rfl fun parent hparent => ?_
    have hup : Path.parent? "/w/lindfs/../x" = some "/w/lindfs/.." := rfl
    rw [hup] at hparent
    cases hparent
    exact hroom
  · rintro ⟨names, -, h⟩
    have hup : names.map Path.Component.name = [.up, .name "x"] :=
      (@List.append_cancel_left _ [.root, .name "w", .name "lindfs"] _ _ h).symm
    cases names with
    | nil => cases hup
    | cons n names => cases hup
  · rintro ⟨names, -, h⟩
    cases names with
    | nil => cases h
    | cons n names => cases h

end Build

end TriBench
