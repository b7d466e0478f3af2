import TriBench.Shell.Word

/-!
# Tokens of the shell

A script is cut into words and operators. Blanks and comments separate them, a line feed is an
operator, and a backslash before a line feed joins two lines. The first fault in a word ends the
cutting and stands in the place of the remaining tokens.
-/

namespace TriBench.Shell

inductive Token
  | word (w : Word)
  | operator (t : Text)
  /-- A number that stands at once before a redirection. -/
  | descriptor (n : Nat)
  | fault (e : SyntaxError)
  deriving DecidableEq, Repr

structure Placed where
  token : Token
  line : Nat
  deriving Repr

def isOperatorChar (c : Char) : Bool := c ∈ ['\n', ';', '&', '|', '<', '>', '(', ')']

def isBlank (c : Char) : Bool := c = ' ' || c = '\t'

def isPlain (c : Char) : Bool :=
  !isOperatorChar c && !isBlank c && c ∉ ['\\', '\'', '"', '$', '`']

def isPlainQuoted (c : Char) : Bool := c ∉ ['\\', '"', '$', '`']

/-- The pieces of a word, and the text behind them. Without quotes the word ends at a blank or an
operator; between double quotes it ends at the quote. -/
def pieces : Nat → Bool → Text → Except SyntaxError (Word × Text)
  | 0, _, t => .ok ([], t)
  | _ + 1, false, [] => .ok ([], [])
  | _ + 1, true, [] => .error .unterminatedQuote
  | n + 1, q, c :: r =>
    let continued (p : Piece) (rest : Text) : Except SyntaxError (Word × Text) :=
      (pieces n q rest).map fun (w, rest) => (p :: w, rest)
    match c with
    | '\\' =>
      match r with
      | [] => continued (.text q ['\\']) []
      | '\n' :: r => pieces n q r
      | d :: r =>
        if q ∧ d ∉ ['$', '`', '"', '\\'] then continued (.text true ['\\', d]) r
        else continued (.text true [d]) r
    | '"' =>
      if q then .ok ([], r)
      else
        match pieces n true r with
        | .error e => .error e
        | .ok (inner, rest) =>
          (pieces n q rest).map fun (w, rest) =>
            ((if inner = [] then [.text true []] else inner) ++ w, rest)
    | '$' =>
      match dollar q r with
      | .error e => .error e
      | .ok (p, rest) => continued p rest
    | '`' =>
      match backquoted r with
      | none => .error .unterminatedQuote
      | some (source, rest) => continued (.output q source) rest
    | '\'' =>
      if q then continued (.text true ['\'']) r
      else
        match r.dropWhile (· ≠ '\'') with
        | [] => .error .unterminatedQuote
        | _ :: rest => continued (.text true (r.takeWhile (· ≠ '\''))) rest
    | c =>
      let plain := if q then isPlainQuoted else isPlain
      if plain c then continued (.text q (c :: r.takeWhile plain)) (r.dropWhile plain)
      else .ok ([], c :: r)

/-- A word that stands where double quotes would, as in an operand. -/
def wordOf (quoted : Bool) (t : Text) : Except SyntaxError Word :=
  (pieces (t.length + 1) quoted (if quoted then t ++ ['"'] else t)).map Prod.fst

/-- The operators, longer ones before those they start with. -/
def operators : List Text :=
  ["&&", "||", ";;", "<<-", "<<", ">>", "<&", ">&", "<>", ">|", ";", "&", "|", "<", ">", "(", ")", "\n"]

def operator? (t : Text) : Option (Text × Text) :=
  (operators.find? (·.isPrefixOf t)).map fun o => (o, t.drop o.length)

def lineFeeds (before after : Text) : Nat :=
  (before.take (before.length - after.length)).count '\n'

def descriptor? (t : Text) : Option (Nat × Text) :=
  let digits := t.takeWhile Char.isDigit
  match t.dropWhile Char.isDigit with
  | c :: r =>
    if c = '<' ∨ c = '>' then (Text.digits? digits).map fun n => (n, c :: r) else none
  | [] => none

/-- The text with a backslash before each double quote, and before each backslash there. -/
def protectQuotes : Text → Text
  | '\\' :: '"' :: r => '\\' :: '\\' :: '\\' :: '"' :: protectQuotes r
  | '"' :: r => '\\' :: '"' :: protectQuotes r
  | c :: r => c :: protectQuotes r
  | [] => []

/-- The lines up to the one that is the delimiter, and the lines behind it. Tabs at their start may
not count. -/
def linesUpTo (dropTabs : Bool) (delimiter : Text) : List Text → List Text × List Text
  | [] => ([], [])
  | l :: ls =>
    let line := if dropTabs then l.dropWhile (· = '\t') else l
    if line = delimiter then ([], ls)
    else
      let (body, rest) := linesUpTo dropTabs delimiter ls
      (line :: body, rest)

/-- A document in the script, behind the operator for it: its word, the text without it, and its
number of lines. It begins on the next line and is expanded unless its delimiter was quoted. -/
def document? (dropTabs : Bool) (t : Text) : Option (Word × Text × Nat) :=
  match pieces (t.length + 1) false (t.dropWhile isBlank) with
  | .error _ => none
  | .ok ([], _) => none
  | .ok (w, rest) =>
    let delimiter := w.flatMap fun p => match p with
      | .text _ t => t
      | _ => []
    let open' := w.all fun p => match p with
      | .text quoted _ => !quoted
      | _ => true
    let line := rest.takeWhile (· ≠ '\n')
    match rest.drop line.length with
    | [] => some ([.text true []], line, 0)
    | _ :: after =>
      let (lines, behind) := linesUpTo dropTabs delimiter (Text.splitOn '\n' after)
      let body := lines.flatMap (· ++ ['\n'])
      let word := if open' then (wordOf true (protectQuotes body)).toOption.getD [] else []
      some (if word = [] then [.text true body] else word,
        line ++ '\n' :: Text.joinWith ['\n'] behind, lines.length + 1)

def tokensFrom : Nat → Nat → Text → List Placed
  | 0, _, _ => []
  | _ + 1, _, [] => []
  | n + 1, line, c :: r =>
    if isBlank c then tokensFrom n line r
    else if c = '#' then tokensFrom n line (r.dropWhile (· ≠ '\n'))
    else if c = '\\' ∧ r.head? = some '\n' then tokensFrom n (line + 1) r.tail
    else
      match operator? (c :: r), descriptor? (c :: r) with
      | some (o, rest), _ =>
        match if ['<', '<'].isPrefixOf o then document? (o.length = 3) rest else none with
        | some (w, rest, count) =>
          ⟨.operator ['<', '<'], line⟩ :: ⟨.word w, line⟩ :: tokensFrom n (line + count) rest
        | none => ⟨.operator o, line⟩ :: tokensFrom n (if o = ['\n'] then line + 1 else line) rest
      | none, some (d, rest) => ⟨.descriptor d, line⟩ :: tokensFrom n line rest
      | none, none =>
        match pieces (r.length + 2) false (c :: r) with
        | .error e => [⟨.fault e, line + lineFeeds (c :: r) []⟩]
        | .ok (w, rest) =>
          ⟨.word w, line⟩ :: tokensFrom n (line + lineFeeds (c :: r) rest) rest

def tokens (t : Text) : List Placed := tokensFrom (t.length + 1) 1 t

end TriBench.Shell
