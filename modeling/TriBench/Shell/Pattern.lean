import TriBench.Text.Basic

/-!
# Patterns of the shell

A pattern is made of characters that know whether they stood in quotes, where they stand for
themselves. Outside quotes an asterisk stands for any text, a question mark for any character, and a
set in square brackets for one of its characters.
-/

namespace TriBench.Shell

structure Marked where
  quoted : Bool
  char : Char
  deriving DecidableEq, Repr

namespace Pattern

inductive Item
  | char (c : Char)
  | any
  | many
  | set (negated : Bool) (ranges : List (Char × Char))
  deriving DecidableEq, Repr

def isSign (c : Char) (m : Marked) : Bool := !m.quoted && m.char = c

/-- The ranges of a set up to its closing bracket, which stands for itself at the start. -/
def ranges : Bool → List Marked → Option (List (Char × Char) × List Marked)
  | _, [] => none
  | start, m :: r =>
    if !start && isSign ']' m then some ([], r)
    else
      match r with
      | d :: e :: r' =>
        if isSign '-' d && !isSign ']' e then
          (ranges false r').map fun (rs, rest) => ((m.char, e.char) :: rs, rest)
        else (ranges false (d :: e :: r')).map fun (rs, rest) => ((m.char, m.char) :: rs, rest)
      | r => (ranges false r).map fun (rs, rest) => ((m.char, m.char) :: rs, rest)
  termination_by _ ms => ms.length

def set? (ms : List Marked) : Option (Item × List Marked) :=
  match ms with
  | m :: r =>
    if isSign '!' m || isSign '^' m then (ranges true r).map fun (rs, rest) => (.set true rs, rest)
    else (ranges true ms).map fun (rs, rest) => (.set false rs, rest)
  | [] => none

def itemsFrom : Nat → List Marked → List Item
  | 0, _ => []
  | _ + 1, [] => []
  | n + 1, m :: r =>
    if isSign '*' m then .many :: itemsFrom n r
    else if isSign '?' m then .any :: itemsFrom n r
    else
      match if isSign '[' m then set? r else none with
      | some (i, rest) => i :: itemsFrom n rest
      | none => .char m.char :: itemsFrom n r

def items (ms : List Marked) : List Item := itemsFrom ms.length ms

def Item.accepts (i : Item) (c : Char) : Bool :=
  match i with
  | .char d => c = d
  | .any => true
  | .many => true
  | .set negated rs => (rs.any fun r => r.1 ≤ c && c ≤ r.2) != negated

def fits : List Item → Text → Bool
  | [], t => t = []
  | .many :: is, [] => fits is []
  | .many :: is, c :: r => fits is (c :: r) || fits (.many :: is) r
  | _ :: _, [] => false
  | i :: is, c :: r => i.accepts c && fits is r
  termination_by is t => (is.length, t.length)

def cutStart (longest : Bool) (is : List Item) (t : Text) : Text :=
  let lengths := List.range (t.length + 1)
  match (if longest then lengths.reverse else lengths).find? fun n => fits is (t.take n) with
  | some n => t.drop n
  | none => t

def cutEnd (longest : Bool) (is : List Item) (t : Text) : Text :=
  let lengths := List.range (t.length + 1)
  match (if longest then lengths else lengths.reverse).find? fun n => fits is (t.drop n) with
  | some n => t.take n
  | none => t

/-- Whether there is anything in the characters that does not stand for itself. -/
def isPattern (ms : List Marked) : Bool :=
  ms.any fun m => !m.quoted && m.char ∈ ['*', '?', '[']

end Pattern

end TriBench.Shell
