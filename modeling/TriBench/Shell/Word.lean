import TriBench.Text.Number

/-!
# Words of the shell

A word is a row of pieces: text, the value of a parameter, the output of a command, or the value of
an arithmetic expression. Each piece knows whether it stood in quotes, which keeps it from being
split and its characters from being patterns. What is nested in a word is kept as it was written and
read when it is needed.
-/

namespace TriBench.Shell

/-- What is made of the value of a parameter. With `colon`, an empty value counts as none. -/
inductive Usage
  | value
  | length
  | default (colon : Bool) (operand : Text)
  | assign (colon : Bool) (operand : Text)
  | require (colon : Bool) (operand : Text)
  | alternative (colon : Bool) (operand : Text)
  /-- The value without the shortest or longest match at its start. -/
  | cutStart (longest : Bool) (pattern : Text)
  | cutEnd (longest : Bool) (pattern : Text)
  deriving DecidableEq, Repr

inductive Piece
  | text (quoted : Bool) (t : Text)
  | parameter (quoted : Bool) (name : Text) (usage : Usage)
  | output (quoted : Bool) (source : Text)
  | arithmetic (quoted : Bool) (source : Text)
  deriving DecidableEq, Repr

abbrev Word := List Piece

def Word.bare? : Word → Option Text
  | [] => some []
  | .text false t :: r => (Word.bare? r).map (t ++ ·)
  | _ :: _ => none

def isNameStart (c : Char) : Bool := c.isAlpha || c = '_'

def isNameRest (c : Char) : Bool := c.isAlphanum || c = '_'

def isName : Text → Bool
  | [] => false
  | c :: r => isNameStart c && r.all isNameRest

def Word.assignment? : Word → Option (Text × Word)
  | .text false t :: r =>
    match t.dropWhile (· ≠ '=') with
    | _ :: v =>
      let name := t.takeWhile (· ≠ '=')
      if isName name then some (name, if v = [] then r else .text false v :: r) else none
    | [] => none
  | _ => none

inductive SyntaxError
  | unterminatedQuote
  | badSubstitution
  | missingBrace
  | badLoopVariable
  | unexpected (what : Text) (expecting : Option Text)
  deriving DecidableEq, Repr

def SyntaxError.message : SyntaxError → Text
  | unterminatedQuote => "Syntax error: Unterminated quoted string"
  | badSubstitution => "Bad substitution"
  | missingBrace => "Syntax error: Missing '\x7d'"
  | badLoopVariable => "Syntax error: Bad for loop variable"
  | unexpected what none => "Syntax error: " ++ what ++ " unexpected"
  | unexpected what (some e) =>
    "Syntax error: " ++ what ++ " unexpected (expecting \"" ++ e ++ "\")"

inductive Bracket
  | parenthesis
  | brace
  | quotes
  deriving DecidableEq, Repr

/-- The text up to the bracket that closes the last of the open ones, and the text behind it. -/
def enclosed : List Bracket → Text → Option (Text × Text)
  | [], r => some ([], r)
  | _ :: _, [] => none
  | b :: bs, '\\' :: c :: r => (enclosed (b :: bs) r).map fun (t, rest) => ('\\' :: c :: t, rest)
  | b :: bs, '$' :: c :: r =>
    let opened :=
      if c = '(' then .parenthesis :: b :: bs
      else if c = '{' then .brace :: b :: bs
      else b :: bs
    if opened = b :: bs then (enclosed (b :: bs) (c :: r)).map fun (t, rest) => ('$' :: t, rest)
    else (enclosed opened r).map fun (t, rest) => ('$' :: c :: t, rest)
  | b :: bs, '\'' :: r =>
    if b = .quotes then (enclosed (b :: bs) r).map fun (t, rest) => ('\'' :: t, rest)
    else
      match h : r.dropWhile (· ≠ '\'') with
      | [] => none
      | _ :: r' =>
        have : r'.length < r.length := by
          have hle := (List.dropWhile_suffix (· ≠ '\'') (l := r)).length_le
          rw [h] at hle
          simp at hle
          omega
        (enclosed (b :: bs) r').map fun (t, rest) =>
          ('\'' :: r.takeWhile (· ≠ '\'') ++ '\'' :: t, rest)
  | b :: bs, c :: r =>
    let open' : List Bracket :=
      match b, c with
      | .quotes, '"' => bs
      | .quotes, _ => b :: bs
      | _, '"' => .quotes :: b :: bs
      | .parenthesis, '(' => .parenthesis :: b :: bs
      | .parenthesis, ')' => bs
      | .brace, '}' => bs
      | _, _ => b :: bs
    if open' = [] then some ([], r)
    else (enclosed open' r).map fun (t, rest) => (c :: t, rest)
  termination_by _ t => t.length
  decreasing_by all_goals simp_wf <;> omega

/-- The text up to the closing backquote, without the backslashes that kept their meaning from
the characters behind them. -/
def backquoted : Text → Option (Text × Text)
  | [] => none
  | '`' :: r => some ([], r)
  | '\\' :: c :: r =>
    (backquoted r).map fun (t, rest) =>
      (if c = '`' ∨ c = '\\' ∨ c = '$' then c :: t else '\\' :: c :: t, rest)
  | c :: r => (backquoted r).map fun (t, rest) => (c :: t, rest)

def Usage.ofText? : Text → Option Usage
  | [] => some .value
  | ':' :: '-' :: t => some (.default true t)
  | '-' :: t => some (.default false t)
  | ':' :: '=' :: t => some (.assign true t)
  | '=' :: t => some (.assign false t)
  | ':' :: '?' :: t => some (.require true t)
  | '?' :: t => some (.require false t)
  | ':' :: '+' :: t => some (.alternative true t)
  | '+' :: t => some (.alternative false t)
  | '#' :: '#' :: t => some (.cutStart true t)
  | '#' :: t => some (.cutStart false t)
  | '%' :: '%' :: t => some (.cutEnd true t)
  | '%' :: t => some (.cutEnd false t)
  | _ => none

def isSpecial (c : Char) : Bool := c ∈ ['@', '*', '#', '?', '$', '!', '-']

def parameterName : Text → Text × Text
  | [] => ([], [])
  | c :: r =>
    if isNameStart c then (c :: r.takeWhile isNameRest, r.dropWhile isNameRest)
    else if c.isDigit then ([c], r)
    else if isSpecial c then ([c], r)
    else ([], c :: r)

def braced? (quoted : Bool) (t : Text) : Option Piece :=
  match t with
  | ['#'] => some (.parameter quoted ['#'] .value)
  | '#' :: r =>
    match parameterName r with
    | (c :: name, []) => some (.parameter quoted (c :: name) .length)
    | _ => none
  | _ =>
    let digits := t.takeWhile Char.isDigit
    let (name, r) := if digits = [] then parameterName t else (digits, t.dropWhile Char.isDigit)
    if name = [] then none else (Usage.ofText? r).map (.parameter quoted name)

def dollar (quoted : Bool) (t : Text) : Except SyntaxError (Piece × Text) :=
  match t with
  | '(' :: r =>
    match enclosed [.parenthesis] r with
    | none => .error (.unexpected "end of file" (some ")"))
    | some (inside, rest) =>
      match inside with
      | '(' :: e =>
        if e.getLast? = some ')' then .ok (.arithmetic quoted e.dropLast, rest)
        else .ok (.output quoted inside, rest)
      | _ => .ok (.output quoted inside, rest)
  | '{' :: r =>
    match enclosed [.brace] r with
    | none => .error .missingBrace
    | some (inside, rest) =>
      match braced? quoted inside with
      | none => .error .badSubstitution
      | some p => .ok (p, rest)
  | _ =>
    match parameterName t with
    | ([], _) => .ok (.text quoted ['$'], t)
    | (name, rest) => .ok (.parameter quoted name .value, rest)

end TriBench.Shell
