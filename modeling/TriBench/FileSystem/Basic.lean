import TriBench.OrderedMap
import TriBench.Path.Basic
import TriBench.Text.Utf8

/-!
# File systems

What is stored, by location: the names on the way from the root. A path is looked up name by name;
links are followed on the way, at most forty of them. `locate` is the look-up that all operations
share.
-/

namespace TriBench

inductive IoError
  | notFound
  | exists
  | notDirectory
  | isDirectory
  | permissionDenied
  | nameTooLong
  | tooManyLinks
  | nulInPath
  | invalidUtf8
  | wholeTree
  /-- Any other cause, by its text. -/
  | other (message : Text)
  deriving DecidableEq, Repr

namespace IoError

def message : IoError → Text
  | notFound => "No such file or directory (os error 2)"
  | «exists» => "File exists (os error 17)"
  | notDirectory => "Not a directory (os error 20)"
  | isDirectory => "Is a directory (os error 21)"
  | permissionDenied => "Permission denied (os error 13)"
  | nameTooLong => "File name too long (os error 36)"
  | tooManyLinks => "Too many levels of symbolic links (os error 40)"
  | nulInPath => "file name contained an unexpected NUL byte"
  | invalidUtf8 => "stream did not contain valid UTF-8"
  | wholeTree => "failed to create whole tree"
  | other text => text

end IoError

inductive Node
  | directory
  | file (content : Bytes) (executable : Bool)
  | link (target : Text)
  deriving DecidableEq, Repr

/-- The names on the way from the root. -/
abbrev Location := List Text

structure FileSystem where
  /-- The working directory, from which relative paths are seen. -/
  working : Location
  /-- All nodes but the root. -/
  nodes : OrderedMap Location Node

namespace FileSystem

def node? (fs : FileSystem) (loc : Location) : Option Node :=
  if loc = [] then some .directory else fs.nodes.get? loc

/-- Where a look-up ends: at a node, or at a directory that lacks the last name. `slash` tells
whether a slash follows that name. -/
inductive Place
  | found (loc : Location) (node : Node)
  | vacant (parent : Location) (name : Text) (slash : Bool)
  deriving DecidableEq, Repr

def maxLinks : Nat := 40

def maxNameBytes : Nat := 255

def maxPathBytes : Nat := 4095

/-- Follows the pieces of a path from a directory, through at most `links` links. A link that is the
last piece is followed if `follow` says so. -/
def walk (fs : FileSystem) (follow : Bool) :
    Nat → Location → List Text → Except IoError Place
  | _, cur, [] => .ok (.found cur .directory)
  | links, cur, p :: rest =>
    if Path.isIdle p then walk fs follow links cur rest
    else if p = ['.', '.'] then walk fs follow links cur.dropLast rest
    else if maxNameBytes < Text.byteLength p then .error .nameTooLong
    else
      match fs.node? (cur ++ [p]) with
      | none =>
        if rest.all (· = []) then .ok (.vacant cur p (rest ≠ [])) else .error .notFound
      | some .directory => walk fs follow links (cur ++ [p]) rest
      | some (.file content executable) =>
        if rest = [] then .ok (.found (cur ++ [p]) (.file content executable))
        else .error .notDirectory
      | some (.link target) =>
        if rest = [] ∧ follow = false then .ok (.found (cur ++ [p]) (.link target))
        else
          match links with
          | 0 => .error .tooManyLinks
          | k + 1 =>
            walk fs follow k (if target.head? = some '/' then [] else cur)
              (Text.splitOn '/' target ++ rest)
  termination_by links _ pieces => (links, pieces.length)

def locate (fs : FileSystem) (follow : Bool) (p : Path) : Except IoError Place :=
  if p.text = [] then .error .notFound
  else if '\x00' ∈ p.text then .error .nulInPath
  else if maxPathBytes < Text.byteLength p.text then .error .nameTooLong
  else
    walk fs follow maxLinks (if p.isAbsolute then [] else fs.working) (Text.splitOn '/' p.text)

def stat? (fs : FileSystem) (p : Path) : Option (Location × Node) :=
  match fs.locate true p with
  | .ok (.found loc n) => some (loc, n)
  | _ => none

def has (fs : FileSystem) (p : Path) : Bool := (fs.stat? p).isSome

def isDirectory (fs : FileSystem) (p : Path) : Bool :=
  match fs.stat? p with
  | some (_, .directory) => true
  | _ => false

def isFile (fs : FileSystem) (p : Path) : Bool :=
  match fs.stat? p with
  | some (_, .file ..) => true
  | _ => false

def namesIn (fs : FileSystem) (p : Path) : List Text :=
  match fs.stat? p with
  | some (loc, .directory) =>
    fs.nodes.keys.filterMap fun k => if k.dropLast = loc then k.getLast? else none
  | _ => []

def workingPath (fs : FileSystem) : Path := ⟨'/' :: Text.joinWith ['/'] fs.working⟩

end FileSystem

end TriBench
