import TriBench.FileSystem.Operations
import TriBench.Text.Blank
import TriBench.Text.Number

/-!
# Conditions

The expressions of `test`: what holds of texts, numbers and files. How an expression is read depends
on the number of its arguments.
-/

namespace TriBench.Shell.Condition

structure IllegalNumber where
  argument : Text

def unary? (op : Text) : Option (FileSystem → Text → Bool) :=
  match op with
  | ['-', 'n'] => some fun _ t => t ≠ []
  | ['-', 'z'] => some fun _ t => t = []
  | ['-', 'e'] => some fun fs t => fs.has ⟨t⟩
  | ['-', 'f'] => some fun fs t => fs.isFile ⟨t⟩
  | ['-', 'd'] => some fun fs t => fs.isDirectory ⟨t⟩
  | ['-', 'r'] => some fun fs t => fs.has ⟨t⟩
  | ['-', 'w'] => some fun fs t => fs.has ⟨t⟩
  | ['-', 'x'] => some fun fs t =>
    match fs.stat? ⟨t⟩ with
    | some (_, .directory) => true
    | some (_, .file _ executable) => executable
    | _ => false
  | ['-', 's'] => some fun fs t =>
    match fs.stat? ⟨t⟩ with
    | some (_, .directory) => true
    | some (_, .file content _) => content ≠ []
    | _ => false
  | ['-', 'h'] => some isLink
  | ['-', 'L'] => some isLink
  | _ => none
where
  isLink (fs : FileSystem) (t : Text) : Bool :=
    match fs.locate false ⟨t⟩ with
    | .ok (.found _ (.link _)) => true
    | _ => false

def number (t : Text) : Except IllegalNumber Int :=
  match Text.int64? (Text.trim t) with
  | some n => .ok n
  | none => .error ⟨t⟩

def binary? (op : Text) : Option (Text → Text → Except IllegalNumber Bool) :=
  let onNumbers (f : Int → Int → Bool) (a b : Text) : Except IllegalNumber Bool :=
    match number a, number b with
    | .ok x, .ok y => .ok (f x y)
    | .error e, _ => .error e
    | _, .error e => .error e
  match String.ofList op with
  | "=" => some fun a b => .ok (a = b)
  | "!=" => some fun a b => .ok (a ≠ b)
  | "<" => some fun a b => .ok (compare a b = .lt)
  | ">" => some fun a b => .ok (compare a b = .gt)
  | "-eq" => some (onNumbers fun x y => x = y)
  | "-ne" => some (onNumbers fun x y => x ≠ y)
  | "-lt" => some (onNumbers fun x y => x < y)
  | "-le" => some (onNumbers fun x y => x ≤ y)
  | "-gt" => some (onNumbers fun x y => y < x)
  | "-ge" => some (onNumbers fun x y => y ≤ x)
  | "-a" => some fun a b => .ok (a ≠ [] ∧ b ≠ [])
  | "-o" => some fun a b => .ok (a ≠ [] ∨ b ≠ [])
  | _ => none

/-- The value of an expression without junctions. An exclamation mark turns what follows it, unless
it stands before a binary operator. -/
def single (fs : FileSystem) : List Text → Except IllegalNumber Bool
  | [] => .ok false
  | [a] => .ok (a ≠ [])
  | [op, a] =>
    match unary? op with
    | some f => .ok (f fs a)
    | none => .ok (op = ['!'] ∧ a = [])
  | a :: op :: r =>
    match binary? op with
    | some f => f a (r.headD [])
    | none => if a = ['!'] then (single fs (op :: r)).map not else .ok true

def splitAt (word : Text) : List Text → List (List Text)
  | [] => [[]]
  | a :: r =>
    if a = word then [] :: splitAt word r
    else
      match splitAt word r with
      | [] => [[a]]
      | p :: ps => (a :: p) :: ps

def both : Except IllegalNumber Bool → Except IllegalNumber Bool → (Bool → Bool → Bool) →
    Except IllegalNumber Bool
  | .ok x, .ok y, join => .ok (join x y)
  | .error e, _, _ => .error e
  | _, .error e, _ => .error e

/-- Whether an expression holds: one of the parts between `-o`, of which every part between `-a`. -/
def holds (fs : FileSystem) (args : List Text) : Except IllegalNumber Bool :=
  if args.length ≤ 3 then single fs args
  else
    (splitAt ['-', 'o'] args).foldl (fun any part =>
      both any ((splitAt ['-', 'a'] part).foldl (fun every p => both every (single fs p) and)
        (.ok true)) or) (.ok false)

end TriBench.Shell.Condition
