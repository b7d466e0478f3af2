import TriBench.Config.Basic

/-!
# Benchmarks

A benchmark is one source file, or the marker of a composite: an empty file whose name lists the
modules and shims that are booted together. The name of a benchmark is its file name without the
extension.
-/

namespace TriBench

/-- A part of a benchmark: a source in the benchmark directory, named without its extension, or the
directory of a shim component. -/
inductive Part
  | source (name : Text)
  | shim (name : Text)
  deriving DecidableEq, Repr

namespace Part

def ofName (suffix name : Text) : Part :=
  if suffix.isSuffixOf name then shim name else source name

def name : Part → Text
  | source n => n
  | shim n => n

end Part

inductive Benchmark.Kind
  | simple
  | composite
  deriving DecidableEq, Repr

structure Benchmark where
  name : Text
  path : Path
  kind : Benchmark.Kind
  /-- In the order in which they are booted. -/
  parts : List Part
  deriving DecidableEq

inductive DefinitionError
  | noName (p : Path)
  | unsupportedExtension (p : Path) (extension : Text)
  | emptyPart (p : Path)
  deriving DecidableEq

def DefinitionError.message : DefinitionError → Text
  | noName p => "Benchmark " ++ p.quoted ++ " has no name"
  | unsupportedExtension p e =>
    "Benchmark " ++ p.quoted ++ " has unsupported extension `" ++ e ++ "`"
  | emptyPart p => "Composite benchmark " ++ p.quoted ++ " has an empty part"

namespace Benchmark

def ofPath (c : Config) (p : Path) : Except DefinitionError Benchmark :=
  match p.fileStem?.filter (· ≠ []) with
  | none => .error (.noName p)
  | some name =>
    let extension := p.extension?.getD []
    if extension = c.sourceExtension then .ok ⟨name, p, .simple, [.source name]⟩
    else if extension = c.compositeExtension then
      let names := Text.splitOn c.compositeDelimiter name
      if [] ∈ names then .error (.emptyPart p)
      else .ok ⟨name, p, .composite, names.map (Part.ofName c.shimSuffix)⟩
    else .error (.unsupportedExtension p extension)

end Benchmark

end TriBench
