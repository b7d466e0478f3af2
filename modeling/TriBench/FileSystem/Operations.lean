import TriBench.FileSystem.Basic

/-!
# Changing a file system

Reading, writing, creating and removing. An operation that fails changes nothing, but for the
creation of a chain of directories, of which the outer ones may stay.
-/

namespace TriBench.FileSystem

def putNode (fs : FileSystem) (loc : Location) (n : Node) : FileSystem :=
  { fs with nodes := fs.nodes.insert loc n }

def read (fs : FileSystem) (p : Path) : Except IoError Bytes :=
  match fs.locate true p with
  | .ok (.found _ (.file content _)) => .ok content
  | .ok (.found ..) => .error .isDirectory
  | .ok (.vacant ..) => .error .notFound
  | .error e => .error e

def readText (fs : FileSystem) (p : Path) : Except IoError Text :=
  (fs.read p).bind fun bytes => (Utf8.decode? bytes).elim (.error .invalidUtf8) .ok

def writeFile (fs : FileSystem) (p : Path) (content : Bytes) : Except IoError FileSystem :=
  match fs.locate true p with
  | .ok (.found loc (.file _ executable)) => .ok (fs.putNode loc (.file content executable))
  | .ok (.found ..) => .error .isDirectory
  | .ok (.vacant _ _ true) => .error .isDirectory
  | .ok (.vacant parent name false) => .ok (fs.putNode (parent ++ [name]) (.file content false))
  | .error e => .error e

def setExecutable (fs : FileSystem) (p : Path) (executable : Bool) : Except IoError FileSystem :=
  match fs.locate true p with
  | .ok (.found loc (.file content _)) => .ok (fs.putNode loc (.file content executable))
  | .ok (.found ..) => .ok fs
  | .ok (.vacant ..) => .error .notFound
  | .error e => .error e

def makeDirectory (fs : FileSystem) (p : Path) : Except IoError FileSystem :=
  match fs.locate false p with
  | .ok (.vacant parent name _) => .ok (fs.putNode (parent ++ [name]) .directory)
  | .ok (.found ..) => .error .exists
  | .error e => .error e

/-- Creates the first of the paths, after the ones behind it where they are missing. -/
def makeFirst (fs : FileSystem) : List Path → Except IoError Unit × FileSystem
  | [] => (.error .wholeTree, fs)
  | p :: above =>
    if p.text = [] then (.ok (), fs)
    else
      match fs.makeDirectory p with
      | .ok fs' => (.ok (), fs')
      | .error .notFound =>
        match makeFirst fs above with
        | (.error e, fs') => (.error e, fs')
        | (.ok (), fs') =>
          match fs'.makeDirectory p with
          | .ok fs'' => (.ok (), fs'')
          | .error e => (if fs'.isDirectory p then .ok () else .error e, fs')
      | .error e => (if fs.isDirectory p then .ok () else .error e, fs)

/-- Creates a directory and those above it; one that is there already is no failure. The file system
afterwards holds what was created before a failure. -/
def makeDirectories (fs : FileSystem) (p : Path) : Except IoError Unit × FileSystem :=
  fs.makeFirst p.ancestors

def makeLink (fs : FileSystem) (p : Path) (target : Text) : Except IoError FileSystem :=
  match fs.locate false p with
  | .ok (.vacant parent name false) => .ok (fs.putNode (parent ++ [name]) (.link target))
  | .ok (.vacant _ _ true) => .error .notFound
  | .ok (.found ..) => .error .exists
  | .error e => .error e

def removeTree (fs : FileSystem) (p : Path) : Except IoError FileSystem :=
  match fs.locate false p with
  | .ok (.found loc _) => .ok { fs with nodes := fs.nodes.filterKeys fun k => !loc.isPrefixOf k }
  | .ok (.vacant ..) => .error .notFound
  | .error e => .error e

/-- Everything below a location, by its path from there; directories end in a slash. -/
def treeBelow (fs : FileSystem) (loc : Location) : List Text :=
  fs.nodes.entries.filterMap fun (k, n) =>
    if loc.isPrefixOf k ∧ k ≠ loc then
      let t := Text.joinWith ['/'] (k.drop loc.length)
      some (if n = .directory then t ++ ['/'] else t)
    else none

def emptyAt (working : Location) : FileSystem :=
  { working
    nodes := (List.range working.length).foldl
      (fun m k => m.insert (working.take (k + 1)) .directory) .empty }

end TriBench.FileSystem
