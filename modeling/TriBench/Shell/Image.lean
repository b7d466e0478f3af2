import TriBench.Shell.FileTools

/-!
# Executable files

What is carried out for the name of a program: a program of the system, or a script, which names the
program that carries it out in its first line. The programs of the system are files in two
directories; a name without a slash is looked for among them alone.
-/

namespace TriBench.Shell

def shells : List Text := ["sh", "dash", "bash"]

def starters : List Text := ["env", "timeout", "nohup", "nice", "setsid", "printenv"]

def systemPrograms : List Text := shells ++ starters ++ Utility.all.map Prod.fst

def systemDirectories : List Location := [["bin"], ["usr", "bin"]]

/-- The file system of a host on which nothing exists but the programs, some devices, and the
working directory with those above it. -/
def hostFiles (working : Location) : FileSystem :=
  let programs := systemDirectories.flatMap fun d => systemPrograms.map fun n => d ++ [n]
  let devices : List Location := [["dev", "null"], ["dev", "zero"]]
  let others : List Location := [["usr"], ["dev"], ["tmp"]]
  let fs :=
    (systemDirectories ++ others).foldl (fun fs d => fs.putNode d .directory) (FileSystem.emptyAt working)
  let fs := devices.foldl (fun fs d => fs.putNode d (.file [] false)) fs
  programs.foldl (fun fs p => fs.putNode p (.file [] true)) fs

structure Image where
  program : Text
  leading : List Text := []
  /-- The name by which it is started, if it is not the one that was given. -/
  calledAs : Option Text := none

namespace Image

def systemProgram? (loc : Location) : Option Text :=
  match loc.getLast? with
  | some name => if loc.dropLast ∈ systemDirectories ∧ name ∈ systemPrograms then some name else none
  | none => none

def firstLine? (content : Bytes) : Option (Text × List Text) :=
  match content with
  | 35 :: 33 :: r =>
    let line := Text.trim (Utf8.decode (r.takeWhile (· ≠ 10)))
    let name := line.takeWhile fun c => c ≠ ' ' ∧ c ≠ '\t'
    let argument := Text.trim (line.drop name.length)
    if name = [] then none else some (name, if argument = [] then [] else [argument])
  | _ => none

def execFormat : IoError := .other "Exec format error (os error 8)"

def ofPath (fs : FileSystem) (path : Text) : Except IoError Image :=
  match fs.locate true ⟨path⟩ with
  | .error e => .error e
  | .ok (.vacant ..) => .error .notFound
  | .ok (.found loc (.file content true)) =>
    match systemProgram? loc with
    | some name => .ok { program := name }
    | none =>
      match firstLine? content with
      | none => .error execFormat
      | some (name, arguments) =>
        match fs.locate true ⟨name⟩ with
        | .error e => .error e
        | .ok (.vacant ..) => .error .notFound
        | .ok (.found loc (.file _ true)) =>
          match systemProgram? loc with
          | some program =>
            .ok { program, leading := arguments ++ [path], calledAs := some name }
          | none => .error execFormat
        | .ok (.found ..) => .error .permissionDenied
  | .ok (.found ..) => .error .permissionDenied

/-- What is carried out for a name, or for a path if there is a slash in it. -/
def ofName (fs : FileSystem) (name : Text) : Except IoError Image :=
  if '/' ∈ name then ofPath fs name
  else if name ∈ systemPrograms then .ok { program := name }
  else .error .notFound

/-- What another program carries out for a name: a file without a first line of its own is given to
the shell. -/
def orScript (fs : FileSystem) (name : Text) : Except IoError Image :=
  match ofName fs name with
  | .error e => if e = execFormat then .ok { program := "sh", leading := [name] } else .error e
  | .ok image => .ok image

def exists? (fs : FileSystem) (name : Text) : Bool :=
  if '/' ∈ name then
    match fs.stat? ⟨name⟩ with
    | some (_, .file _ executable) => executable
    | _ => false
  else name ∈ systemPrograms

end Image

end TriBench.Shell
