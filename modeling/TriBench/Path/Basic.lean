import TriBench.Text.Quoted

/-!
# Paths

A path is a text, kept as it was given, with a view as a list of components: the root, the current
directory (only as the start of a relative path), the parent directory, and names. Repeated slashes,
a slash at the end and single dots further on do not show in the view. Paths are ordered by their
components.
-/

namespace TriBench

structure Path where
  text : Text
  deriving DecidableEq, Repr

instance : Coe String Path := ⟨fun s => ⟨s.toList⟩⟩

namespace Path

inductive Component
  | root
  | here
  | up
  | name (text : Text)
  deriving DecidableEq, Repr

namespace Component

def ofPiece (piece : Text) : Component :=
  if piece = ['.', '.'] then up else name piece

def text : Component → Text
  | root => ['/']
  | here => ['.']
  | up => ['.', '.']
  | name t => t

/-- What components are ordered by: first their kind, then names by their characters. -/
def key : Component → List Nat
  | root => [0]
  | here => [1]
  | up => [2]
  | name t => 3 :: t.map Char.toNat

instance : Ord Component := ⟨compareOn key⟩

instance : Std.TransOrd Component := inferInstanceAs (Std.TransCmp (compareOn key))

end Component

def isAbsolute (p : Path) : Bool := p.text.head? = some '/'

def isIdle (piece : Text) : Bool := piece = [] || piece = ['.']

def front (p : Path) : Text := p.text.takeWhile (· ≠ '/')

def tail (p : Path) : List Text := (Text.splitOn '/' p.text).tail

def dropIdleEnd (pieces : List Text) : List Text := (pieces.reverse.dropWhile isIdle).reverse

/-- The start of the path, which is the root, the current directory, or a first piece. -/
def startComponents (p : Path) : List Component :=
  if p.isAbsolute then [.root]
  else if p.front = [] then []
  else if p.front = ['.'] then [.here]
  else [.ofPiece p.front]

def components (p : Path) : List Component :=
  p.startComponents ++ (p.tail.filter fun piece => !isIdle piece).map .ofPiece

def withTail (p : Path) (pieces : List Text) : Path :=
  if pieces = [] ∧ p.isAbsolute then "/" else ⟨Text.joinWith ['/'] (p.front :: pieces)⟩

def trimmed (p : Path) : Path := p.withTail (dropIdleEnd p.tail)

/-- The last component, if it is a name. -/
def fileName? (p : Path) : Option Text :=
  match p.components.getLast? with
  | some (.name n) => some n
  | _ => none

/-- A file name at its last dot: the stem and the extension. A dot at the start separates nothing. -/
def splitName (n : Text) : Text × Option Text :=
  match n.reverse.dropWhile (· ≠ '.') with
  | _ :: b :: before => ((b :: before).reverse, some (n.reverse.takeWhile (· ≠ '.')).reverse)
  | _ => (n, none)

def fileStem? (p : Path) : Option Text := p.fileName?.map fun n => (splitName n).1

def extension? (p : Path) : Option Text := p.fileName?.bind fun n => (splitName n).2

def parent? (p : Path) : Option Path :=
  let pieces := dropIdleEnd p.tail
  if pieces ≠ [] then some (p.withTail (dropIdleEnd pieces.dropLast))
  else if p.isAbsolute ∨ p.front = [] then none
  else some ""

def ancestorsUpTo : Nat → Path → List Path
  | 0, _ => []
  | n + 1, p => p :: (p.parent?.map (ancestorsUpTo n)).getD []

/-- The path, its parent, and so on up to the root or the empty path. A parent is shorter than the
path. -/
def ancestors (p : Path) : List Path := ancestorsUpTo (p.text.length + 1) p

/-- `q` seen from `p`: an absolute `q` stands for itself. -/
def join (p q : Path) : Path :=
  if q.isAbsolute then q
  else if p.text = [] ∨ p.text.getLast? = some '/' then ⟨p.text ++ q.text⟩
  else ⟨p.text ++ '/' :: q.text⟩

/-- The text up to the end of the file stem, then a dot and the extension unless it is empty. A path
without a file name is left alone. -/
def setExtension (p : Path) (extension : Text) : Path :=
  match p.fileName? with
  | none => p
  | some n =>
    let t := p.trimmed.text
    let stemmed := t.take (t.length - (n.length - (splitName n).1.length))
    ⟨stemmed ++ if extension = [] then [] else '.' :: extension⟩

/-- The path with another extension: as many characters as the old one has are cut off the end, and
then the new one is set. -/
def replaceExtension (p : Path) (extension : Text) : Path :=
  match p.extension? with
  | none => p.setExtension extension
  | some old => setExtension ⟨p.text.take (p.text.length - old.length)⟩ extension

/-- An extension with a slash in it is none. -/
def withExtension? (p : Path) (extension : Text) : Option Path :=
  if '/' ∈ extension then none else some (p.replaceExtension extension)

/-- Removes names from the start of pieces, idle pieces between them included. -/
def stripPieces : List Component → List Text → Option (List Text)
  | [], pieces => some pieces
  | c :: cs, pieces =>
    match pieces.dropWhile isIdle with
    | [] => none
    | piece :: rest => if Component.ofPiece piece = c then stripPieces cs rest else none

def stripPrefix? (p base : Path) : Option Path :=
  match base.components with
  | [] => some p.trimmed
  | start :: rest =>
    if p.startComponents = [start] then
      (stripPieces rest p.tail).map fun pieces =>
        ⟨Text.joinWith ['/'] (dropIdleEnd (pieces.dropWhile isIdle))⟩
    else none

def ofComponents (start : Path) (cs : List Component) : Path :=
  cs.foldl (fun p c => p.join ⟨c.text⟩) start

/-- The path from the root, seen from a directory: single dots and repeated slashes go, but for two
slashes at the start; `..` and a slash at the end stay. The empty path has none. -/
def absolute? (directory p : Path) : Option Path :=
  if p.text = [] then none
  else
    let (start, cs) : Path × List Component :=
      if p.isAbsolute then
        if ['/', '/'].isPrefixOf p.text ∧ ¬ ['/', '/', '/'].isPrefixOf p.text then
          ("//", p.components.tail)
        else ("", p.components)
      else (directory, p.components.filter (· ≠ .here))
    let q := ofComponents start cs
    some (if p.text.getLast? = some '/' then q.join "" else q)

def quoted (p : Path) : Text := Text.quoted p.text

end Path

end TriBench
