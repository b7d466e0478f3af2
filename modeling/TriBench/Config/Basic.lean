import TriBench.Path.Basic

/-!
# Configuration

Where benchmarks lie and outputs go, how files are told apart, which programs are called and how long
each may run. Every setting has a default. Main definition: `resolve`, which makes the directories
absolute.
-/

namespace TriBench

structure Tools where
  nativeCompiler : Text := "cc"
  sandboxCompiler : Text := "lind_compile"
  sandboxBoot : Text := "lind-boot"
  shell : Text := "bash"
  shimBuildScript : Text := "compile_grate.sh"
  versionControl : Text := "git"
  elevation : Text := "sudo"
  deriving DecidableEq

/-- Where the shim components come from. -/
structure Repository where
  url : Text := "https://github.com/Lind-Project/lind-wasm-example-grates.git"
  branch : Text := "main"
  workingCopy : Path := "tests/lind-wasm-example-grates"
  deriving DecidableEq

structure Config where
  benchmarkDirectory : Path := "tests/benchmarks"
  sandboxRoot : Path := "lindfs"
  /-- Sources that are compiled into every benchmark and are none themselves. -/
  supportSources : List Text := ["imfs.c", "bench.c"]
  sourceExtension : Text := "c"
  compositeExtension : Text := "grate"
  moduleExtension : Text := "cwasm"
  shimSuffix : Text := "_grate"
  compositeDelimiter : Char := '.'
  tools : Tools := {}
  repository : Repository := {}
  /-- The time limit of each command in seconds. -/
  timeout : Nat := 180
  deriving DecidableEq

namespace Config

def supportSourcePaths (c : Config) : List Path :=
  c.supportSources.map fun name => c.benchmarkDirectory.join ⟨name⟩

def timeoutMillis (c : Config) : Nat := 1000 * c.timeout

inductive ResolveError
  | zeroTimeout
  | benchmarkDirectory (p : Path)
  | sandboxRoot (p : Path)
  | workingCopy (p : Path)
  deriving DecidableEq

def ResolveError.message : ResolveError → Text
  | zeroTimeout => "The per-process timeout must be positive"
  | benchmarkDirectory p => "Benchmark directory " ++ p.quoted ++ emptyPath
  | sandboxRoot p => "Sandbox root " ++ p.quoted ++ emptyPath
  | workingCopy p => "Repository working copy " ++ p.quoted ++ emptyPath
where
  emptyPath : Text := " resolving error: cannot make an empty path absolute"

def absolute (working p : Path) (e : Path → ResolveError) : Except ResolveError Path :=
  match Path.absolute? working p with
  | some q => .ok q
  | none => .error (e p)

def resolve (working : Path) (c : Config) : Except ResolveError Config :=
  if c.timeout = 0 then .error .zeroTimeout
  else do
    let benchmarks ← absolute working c.benchmarkDirectory .benchmarkDirectory
    let root ← absolute working c.sandboxRoot .sandboxRoot
    let copy ← absolute working c.repository.workingCopy .workingCopy
    pure { c with
      benchmarkDirectory := benchmarks
      sandboxRoot := root
      repository := { c.repository with workingCopy := copy } }

end Config

end TriBench
