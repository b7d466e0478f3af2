import TriBench.CommandLine
import TriBench.Shell.Host

/-!
# The program

Runs the command line on a picture of the working directory, in which scripts stand for the tools,
and then brings the directory up to the picture.
-/

namespace TriBench.Main

/-- A script is known by its first two bytes. -/
def isScript (content : Bytes) : Bool := content.take 2 = [35, 33]

partial def gather (loc : Location) (entries : Array IO.FS.DirEntry) (fs : FileSystem) :
    IO FileSystem := do
  let mut fs := fs
  for e in entries do
    let place := loc ++ [e.fileName.toList]
    match (← e.path.symlinkMetadata).type with
    | .dir => fs ← gather place (← e.path.readDir) (fs.putNode place .directory)
    | .file =>
      let content := (← IO.FS.readBinFile e.path).toList
      fs := fs.putNode place (.file content (isScript content))
    | _ =>
      if (← e.path.pathExists) && !(← e.path.isDir) then
        fs := fs.putNode place (.file (← IO.FS.readBinFile e.path).toList true)
  return fs

def bringUp (before after : FileSystem) : IO Unit := do
  for (loc, n) in after.nodes.entries do
    if before.nodes.get? loc ≠ some n then
      let path := Text.toString (Shell.Utility.locationText loc)
      match n with
      | .directory => IO.FS.createDirAll path
      | .file content _ => IO.FS.writeBinFile path ⟨content.toArray⟩
      | .link _ => pure ()

/-- Colours are for terminals, unless the environment asks for them or forbids them. -/
def wantsColours : IO Bool := do
  if ((← IO.getEnv "CLICOLOR_FORCE").getD "0") ≠ "0" then return true
  if (← IO.getEnv "NO_COLOR").isSome then return false
  return ((← IO.getEnv "CLICOLOR").getD "1") ≠ "0" && (← (← IO.getStdout).isTty)

end TriBench.Main

def main (args : List String) : IO UInt32 := do
  let working ← IO.currentDir
  let loc := (TriBench.Text.splitOn '/' working.toString.toList).filter (· ≠ [])
  let files ← TriBench.Main.gather loc (← working.readDir) (TriBench.Shell.hostFiles loc)
  let env : TriBench.CommandLine.Environment Unit :=
    { files, toolbox := TriBench.Shell.Host.toolbox, tools := ()
      colours := ← TriBench.Main.wantsColours, elapsedSeconds := 0 }
  let c := TriBench.CommandLine.run env (args.map String.toList)
  TriBench.Main.bringUp files c.files
  (← IO.getStdout).putStr (TriBench.Text.toString c.stdout)
  (← IO.getStderr).putStr (TriBench.Text.toString c.stderr)
  return UInt32.ofNat c.code
