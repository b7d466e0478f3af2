import TriBench.Benchmark
import TriBench.Sample
import TriBench.Measurement
import TriBench.Tool.Failure

/-!
# Failures of benchmarks

Why a component could not be fetched, an artifact not be built, a program not be run, or an output
not be taken in. Each failure has a kind, a message, and the output of the command that failed, if
one did. A build that fails for a component counts as a failed resolution.
-/

namespace TriBench

inductive FetchError
  | directory (p : Path) (cause : IoError)
  | cloning (component : Text) (cause : ToolFailure)
  | selecting (component : Text) (cause : ToolFailure)
  | updating (component : Text) (cause : ToolFailure)
  | notFound (component : Text) (searched : List Path)
  deriving DecidableEq

def directoryMessage (p : Path) (cause : IoError) : Text :=
  "Directory " ++ p.quoted ++ " creating error: " ++ cause.message

namespace FetchError

def message : FetchError → Text
  | directory p cause => directoryMessage p cause
  | cloning c cause => "Component `" ++ c ++ "` repository cloning error: " ++ cause.message
  | selecting c cause => "Component `" ++ c ++ "` sparse selection error: " ++ cause.message
  | updating c cause => "Component `" ++ c ++ "` working copy updating error: " ++ cause.message
  | notFound c searched =>
    "Component `" ++ c ++ "` not found in " ++ Text.quotedList (searched.map Path.text)

def tool? : FetchError → Option ToolFailure
  | cloning _ f => some f
  | selecting _ f => some f
  | updating _ f => some f
  | directory .. => none
  | notFound .. => none

end FetchError

inductive BuildError
  | definition (cause : DefinitionError)
  | notSimple (name : Text)
  | outside (p base : Path)
  | componentName (p : Path)
  | directory (p : Path) (cause : IoError)
  | toolchain (p : Path) (cause : ToolFailure)
  | fetching (cause : FetchError)
  deriving DecidableEq

namespace BuildError

def message : BuildError → Text
  | definition cause => cause.message
  | notSimple name => "Benchmark `" ++ name ++ "` is not a simple benchmark"
  | outside p base =>
    "Source " ++ p.quoted ++ " is outside of the benchmark directory " ++ base.quoted
  | componentName p => "Component directory " ++ p.quoted ++ " has no name"
  | directory p cause => directoryMessage p cause
  | toolchain p cause => p.quoted ++ " compiling error: " ++ cause.message
  | fetching cause => cause.message

def tool? : BuildError → Option ToolFailure
  | toolchain _ f => some f
  | fetching cause => cause.tool?
  | _ => none

end BuildError

inductive RunError
  | tool (platform : Platform) (cause : ToolFailure)
  | noModules (platform : Platform)
  deriving DecidableEq

namespace RunError

def message : RunError → Text
  | tool p cause => p.name ++ " run error: " ++ cause.message
  | noModules p => p.name ++ " run error: no modules to boot"

def tool? : RunError → Option ToolFailure
  | tool _ f => some f
  | noModules _ => none

end RunError

inductive Failure
  | resolution (cause : FetchError)
  | compilation (cause : BuildError)
  | execution (cause : RunError)
  | malformedOutput (platform : Platform) (cause : BatchError)
  deriving DecidableEq

inductive Failure.Kind
  | resolution
  | compilation
  | execution
  | malformedOutput
  deriving DecidableEq, Repr

namespace Failure

def Kind.name : Kind → Text
  | .resolution => "resolution"
  | .compilation => "compilation"
  | .execution => "execution"
  | .malformedOutput => "malformed output"

def Kind.all : List Kind := [.resolution, .compilation, .execution, .malformedOutput]

def kind : Failure → Kind
  | resolution _ => .resolution
  | compilation _ => .compilation
  | execution _ => .execution
  | malformedOutput .. => .malformedOutput

def message : Failure → Text
  | resolution cause => cause.message
  | compilation cause => cause.message
  | execution cause => cause.message
  | malformedOutput p cause => p.name ++ " output error: " ++ cause.message

def tool? : Failure → Option ToolFailure
  | resolution cause => cause.tool?
  | compilation cause => cause.tool?
  | execution cause => cause.tool?
  | malformedOutput .. => none

def diagnostics (f : Failure) : Option Text := f.tool?.bind ToolFailure.diagnostics

/-- A component that is not there is a failure of its own kind. -/
def ofBuild : BuildError → Failure
  | .fetching cause => resolution cause
  | e => compilation e

end Failure

end TriBench
