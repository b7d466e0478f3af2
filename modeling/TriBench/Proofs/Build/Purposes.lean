import TriBench.Proofs.Build.Composite
import TriBench.Proofs.Build.Simple

/-!
# What commands are for

Every command of a benchmark is given for a purpose, from which the command follows, as does the
failure that is recorded if the command fails. A purpose serves a benchmark if it comes from its
parts or from what they are built to.
-/

namespace TriBench

/-- What a command is for. The boot of modules is the only one that takes privileges. -/
inductive Purpose
  | fetch (step : Component.Step) (component : Text) (selection : List Text)
  | native (source program : Path)
  | sandbox (source : Path)
  | shim (directory : Path)
  | boot (platform : Platform) (modules : List Path)
  | execution (program : Path)

namespace Purpose

section
variable {σ : Type} (st : Setting σ)

def command : Purpose → Command
  | fetch step component selection => step.command st component selection
  | native source program => Build.nativeCommand st source program
  | sandbox source => Build.sandboxCommand st source
  | shim directory => Build.shimCommand st directory
  | boot _ modules => Execution.bootCommand st modules
  | execution program => st.command program.text

theorem timeout_command (u : Purpose) : (u.command st).timeout = st.config.timeoutMillis := by
  cases u with
  | fetch step => cases step <;> rfl
  | _ => rfl

end

def kind : Purpose → Failure.Kind
  | fetch .. => .resolution
  | native .. | sandbox _ | shim _ => .compilation
  | boot .. | execution _ => .execution

def failure (e : ToolFailure) : Purpose → Failure
  | fetch step component _ => .resolution (step.failure component e)
  | native source _ | sandbox source => .compilation (.toolchain source e)
  | shim directory => .compilation (.toolchain directory e)
  | boot platform _ => .execution (.tool platform e)
  | execution _ => .execution (.tool .linux e)

theorem kind_failure (e : ToolFailure) (u : Purpose) : (u.failure e).kind = u.kind := by
  cases u <;> rfl

theorem tool?_failure (e : ToolFailure) (u : Purpose) : (u.failure e).tool? = some e := by
  cases u with
  | fetch step component => exact step.tool?_failure component e
  | _ => rfl

def platform? : Purpose → Option Platform
  | boot p _ => some p
  | execution _ => some .linux
  | _ => none

end Purpose

section
variable {σ : Type} (st : Setting σ)

/-- The path of a module, as it is seen from the sandbox root: of a source in the benchmark
directory, or of a shim by the name of its directory. -/
inductive Build.IsModule : Path → Prop
  | source {source rel : Path} (h : source.stripPrefix? st.config.benchmarkDirectory = some rel) :
    IsModule (rel.replaceExtension st.config.moduleExtension)
  | shim {directory : Path} {name : Text} (h : directory.fileName? = some name) :
    IsModule (Path.replaceExtension ⟨name⟩ st.config.moduleExtension)

inductive Purpose.Serves (b : Benchmark) : Purpose → Prop
  | fetch {component : Text} (h : .shim component ∈ b.parts) (step : Component.Step) (selection : List Text) :
    Serves b (fetch step component selection)
  | native (hk : b.kind = .simple) {program : Path} (h : Build.program? st b = some program) :
    Serves b (native b.path program)
  | simple (hk : b.kind = .simple) : Serves b (sandbox b.path)
  | part {name : Text} (h : .source name ∈ b.parts) : Serves b (sandbox (Build.sourceOf st name))
  | shim {name : Text} (h : .shim name ∈ b.parts) {files : FileSystem} {directory : Path}
    (hd : Component.located st name files = .ok directory) : Serves b (shim directory)
  | boot (p : Platform) {modules : List Path} (hne : modules ≠ []) (h : ∀ m ∈ modules, Build.IsModule st m) :
    Serves b (boot p modules)
  | execution (hk : b.kind = .simple) {program : Path} (h : Build.program? st b = some program) :
    Serves b (execution program)

end

end TriBench
