import TriBench.FileSystem.Operations

/-!
# Reports in files
-/

namespace TriBench.Report

structure WriteError where
  path : Path
  cause : IoError
  deriving DecidableEq

def WriteError.message (e : WriteError) : Text :=
  "Benchmark report " ++ e.path.quoted ++ " writing: " ++ e.cause.message

def write (fs : FileSystem) (p : Path) (report : Text) : Except WriteError FileSystem :=
  (fs.writeFile p (Text.toBytes report)).mapError (WriteError.mk p)

end TriBench.Report
