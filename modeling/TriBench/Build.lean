import TriBench.Component

/-!
# Builds

Native programs are placed below the sandbox root as their sources lie below the benchmark
directory; sandbox modules are named by their path from the sandbox root. The parts of a composite
are built in order, and the first failure ends the build.
-/

namespace TriBench

inductive Target
  | native
  | sandbox
  | sandboxShim
  deriving DecidableEq, Repr

def Target.name : Target → Text
  | native => "native"
  | sandbox => "sandbox"
  | sandboxShim => "sandbox+shim"

/-- What a build has made. The path of a native program is its own; that of a module is seen from
the sandbox root. -/
structure Artifact where
  target : Target
  path : Path
  deriving DecidableEq

namespace Build

variable {σ : Type}

def relative (st : Setting σ) (p : Path) : Act σ BuildError Path :=
  match p.stripPrefix? st.config.benchmarkDirectory with
  | some q => pure q
  | none => throw (.outside p st.config.benchmarkDirectory)

def reportCompiling (st : Setting σ) (target : Target) (p : Path) : Act σ BuildError Unit :=
  st.report 3 "Compiling" (p.quoted ++ " (" ++ target.name ++ [')'])

def supportTexts (st : Setting σ) : List Text := st.config.supportSourcePaths.map Path.text

def nativeCommand (st : Setting σ) (source output : Path) : Command :=
  (st.command st.config.tools.nativeCompiler).args
    (source.text :: supportTexts st) |>.args ["-o", output.text]

def sandboxCommand (st : Setting σ) (source : Path) : Command :=
  (st.command st.config.tools.sandboxCompiler).args (source.text :: supportTexts st)

def shimCommand (st : Setting σ) (directory : Path) : Command :=
  ((st.command st.config.tools.shell).args
    [(directory.join ⟨st.config.tools.shimBuildScript⟩).text, st.config.sandboxRoot.text]).inDirectory
    directory

def native (st : Setting σ) (b : Benchmark) : Act σ BuildError Artifact := do
  if b.kind ≠ .simple then throw (.notSimple b.name)
  let program ← Act.withExtension (← relative st b.path) []
  let output := st.config.sandboxRoot.join program
  Setting.makeParent output .directory
  reportCompiling st .native b.path
  let _ ← (st.invoke (nativeCommand st b.path output)).orElseFail (.toolchain b.path)
  pure ⟨.native, output⟩

def sandboxSource (st : Setting σ) (source : Path) : Act σ BuildError Artifact := do
  let module ← Act.withExtension (← relative st source) st.config.moduleExtension
  reportCompiling st .sandbox source
  let _ ← (st.invoke (sandboxCommand st source)).orElseFail (.toolchain source)
  pure ⟨.sandbox, module⟩

def sandbox (st : Setting σ) (b : Benchmark) : Act σ BuildError Artifact := do
  if b.kind ≠ .simple then throw (.notSimple b.name)
  sandboxSource st b.path

def shim (st : Setting σ) (directory : Path) : Act σ BuildError Artifact := do
  match directory.fileName? with
  | none => throw (.componentName directory)
  | some name =>
    reportCompiling st .sandboxShim directory
    let _ ← (st.invoke (shimCommand st directory)).orElseFail (.toolchain directory)
    let module ← Act.withExtension ⟨name⟩ st.config.moduleExtension
    pure ⟨.sandboxShim, module⟩

def part (st : Setting σ) : Part → Act σ BuildError Artifact
  | .source name => do
    let source ←
      Act.withExtension (st.config.benchmarkDirectory.join ⟨name⟩) st.config.sourceExtension
    sandboxSource st source
  | .shim name => do
    let directory ← (Component.fetch st name).orElseFail .fetching
    shim st directory

def parts (st : Setting σ) : List Part → Act σ BuildError (List Artifact)
  | [] => pure []
  | p :: ps => do
    let artifact ← part st p
    let artifacts ← parts st ps
    pure (artifact :: artifacts)

def both (st : Setting σ) (b : Benchmark) : Act σ BuildError (Artifact × Artifact) := do
  let program ← native st b
  let module ← sandbox st b
  pure (program, module)

end Build

end TriBench
