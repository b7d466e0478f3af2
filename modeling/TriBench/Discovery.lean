import TriBench.Config.Basic
import TriBench.Glob

/-!
# Discovery

Benchmarks are the files in the benchmark directory with one of the two extensions, but for the
support sources. A prefix narrows them down; without any prefix all count. They come in the order of
their paths, and paths with the same components count once, as the first prefix found them.
-/

namespace TriBench.Discovery

def isRecognized (c : Config) (p : Path) : Bool :=
  match p.fileName? with
  | none => false
  | some name =>
    name ∉ c.supportSources &&
      (p.extension? = some c.sourceExtension || p.extension? = some c.compositeExtension)

def pattern (c : Config) (start : Text) : Text :=
  Glob.escape c.benchmarkDirectory.text ++ '/' :: Glob.escape start ++ ['*']

def discover (fs : FileSystem) (c : Config) (prefixes : List Text) :
    Except Glob.PatternError (List Path) := do
  let starts := if prefixes = [] then [[]] else prefixes
  let found ← starts.mapM fun start => Glob.expand fs (pattern c start)
  let kept := found.flatten.filter fun p => fs.isFile p && isRecognized c p
  let byComponents : OrderedMap (List Path.Component) Path :=
    kept.foldl (fun m p => m.alter p.components (·.getD p)) .empty
  pure byComponents.values

end TriBench.Discovery
