import TriBench.Shell.Word

/-!
# Arithmetic of the shell

Integers of 64 bits with the operators of increasing strength below; what is false is zero, what is
true is one.
-/

namespace TriBench.Shell.Arithmetic

inductive Fault
  | malformed
  | divisionByZero
  deriving DecidableEq, Repr

inductive Lexeme
  | number (n : Nat)
  | name (t : Text)
  | sign (t : Text)
  deriving DecidableEq, Repr

def operators : List (Text × Nat) :=
  [("||", 1), ("&&", 2), ("|", 3), ("^", 4), ("&", 5), ("==", 6), ("!=", 6), ("<=", 7), (">=", 7),
   ("<", 7), (">", 7), ("<<", 8), (">>", 8), ("+", 9), ("-", 9), ("*", 10), ("/", 10), ("%", 10)]

def signs : List Text :=
  ["||", "&&", "==", "!=", "<=", ">=", "<<", ">>", "|", "^", "&", "<", ">", "+", "-", "*", "/", "%",
   "!", "~", "(", ")"]

/-- The value of digits: octal after a zero, decimal otherwise. -/
def number (digits : Text) : Nat :=
  let base := if digits.head? = some '0' then 8 else 10
  digits.foldl (fun n c => base * n + (c.toNat - '0'.toNat)) 0

def lexemes : Nat → Text → Except Fault (List Lexeme)
  | 0, _ => .ok []
  | _ + 1, [] => .ok []
  | n + 1, c :: r =>
    if c = ' ' ∨ c = '\t' ∨ c = '\n' then lexemes n r
    else if c.isDigit then
      (lexemes n (r.dropWhile Char.isDigit)).map
        (.number (number (c :: r.takeWhile Char.isDigit)) :: ·)
    else if isNameStart c then
      (lexemes n (r.dropWhile isNameRest)).map (.name (c :: r.takeWhile isNameRest) :: ·)
    else
      match signs.find? (·.isPrefixOf (c :: r)) with
      | some s => (lexemes n ((c :: r).drop s.length)).map (.sign s :: ·)
      | none => .error .malformed

def wrap (x : Int) : Int := Int.bmod x (Nat.pow 2 64)

def truth (b : Bool) : Int := if b then 1 else 0

def bitwise (f : Nat → Nat → Nat) (x y : Int) : Int :=
  f (x % Nat.pow 2 64).toNat (y % Nat.pow 2 64).toNat

def apply (o : Text) (x y : Int) : Except Fault Int :=
  match String.ofList o with
  | "||" => .ok (truth (x ≠ 0 || y ≠ 0))
  | "&&" => .ok (truth (x ≠ 0 && y ≠ 0))
  | "|" => .ok (wrap (bitwise (· ||| ·) x y))
  | "^" => .ok (wrap (bitwise (· ^^^ ·) x y))
  | "&" => .ok (wrap (bitwise (· &&& ·) x y))
  | "==" => .ok (truth (x = y))
  | "!=" => .ok (truth (x ≠ y))
  | "<=" => .ok (truth (x ≤ y))
  | ">=" => .ok (truth (y ≤ x))
  | "<" => .ok (truth (x < y))
  | ">" => .ok (truth (y < x))
  | "<<" => .ok (wrap (x * Nat.pow 2 (y % 64).toNat))
  | ">>" => .ok (x / Nat.pow 2 (y % 64).toNat)
  | "+" => .ok (wrap (x + y))
  | "-" => .ok (wrap (x - y))
  | "*" => .ok (wrap (x * y))
  | "/" => if y = 0 then .error .divisionByZero else .ok (wrap (Int.tdiv x y))
  | "%" => if y = 0 then .error .divisionByZero else .ok (Int.tmod x y)
  | _ => .error .malformed

mutual

/-- An expression whose operators bind at least as strongly as `level`. -/
def expression (value : Text → Int) : Nat → Nat → List Lexeme → Except Fault (Int × List Lexeme)
  | 0, _, _ => .error .malformed
  | n + 1, level, ls =>
    match operand value n ls with
    | .error e => .error e
    | .ok (x, ls) => operations value n level x ls

def operations (value : Text → Int) :
    Nat → Nat → Int → List Lexeme → Except Fault (Int × List Lexeme)
  | 0, _, x, ls => .ok (x, ls)
  | n + 1, level, x, ls =>
    match ls with
    | .sign o :: r =>
      match operators.lookup o with
      | some strength =>
        if strength < level then .ok (x, ls)
        else
          match expression value n (strength + 1) r with
          | .error e => .error e
          | .ok (y, r) =>
            match apply o x y with
            | .error e => .error e
            | .ok z => operations value n level z r
      | none => .ok (x, ls)
    | _ => .ok (x, ls)

def operand (value : Text → Int) : Nat → List Lexeme → Except Fault (Int × List Lexeme)
  | 0, _ => .error .malformed
  | n + 1, ls =>
    match ls with
    | .number k :: r => .ok (wrap k, r)
    | .name t :: r => .ok (value t, r)
    | .sign ['('] :: r =>
      match expression value n 0 r with
      | .ok (x, .sign [')'] :: r) => .ok (x, r)
      | .ok _ => .error .malformed
      | .error e => .error e
    | .sign ['-'] :: r => (operand value n r).map fun (x, r) => (wrap (-x), r)
    | .sign ['+'] :: r => operand value n r
    | .sign ['!'] :: r => (operand value n r).map fun (x, r) => (truth (x = 0), r)
    | .sign ['~'] :: r => (operand value n r).map fun (x, r) => (-x - 1, r)
    | _ => .error .malformed

end

/-- The value of an expression, with the values of variables. Nothing at all is zero. -/
def evaluate (value : Text → Int) (t : Text) : Except Fault Int :=
  match lexemes (t.length + 1) t with
  | .error e => .error e
  | .ok [] => .ok 0
  | .ok ls =>
    match expression value (3 * ls.length + 3) 0 ls with
    | .ok (x, []) => .ok x
    | .ok _ => .error .malformed
    | .error e => .error e

end TriBench.Shell.Arithmetic
