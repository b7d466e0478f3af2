import TriBench.Shell.Statement
import TriBench.Shell.Token

/-!
# Scripts of the shell

A script is read line by line, so that the lines before a fault in the grammar are still carried
out. A line goes on where a compound command or an operator is not complete.
-/

namespace TriBench.Shell

structure Script where
  lines : List Statement
  /-- The fault that ends the script, with its line. -/
  fault : Option (SyntaxError × Nat) := none

namespace Script

abbrev Tokens := List Placed

/-- What a reader makes of the tokens at the front, and the tokens behind them. -/
abbrev Read (α : Type) := Except (SyntaxError × Nat) (α × Tokens)

def reserved : List Text :=
  ["if", "then", "elif", "else", "fi", "for", "in", "while", "until", "do", "done", "case", "esac",
   "\x7b", "\x7d", "!"]

def redirectionKind? (o : Text) : Option (Redirection.Kind × Nat) :=
  if o = ['<'] then some (.input, 0)
  else if o = ['>'] ∨ o = ['>', '|'] then some (.output, 1)
  else if o = ['>', '>'] then some (.append, 1)
  else if ['<', '<'].isPrefixOf o then some (.document, 0)
  else if o = ['>', '&'] then some (.duplicate, 1)
  else if o = ['<', '&'] then some (.duplicate, 0)
  else none

def Token.shown : Token → Text
  | .operator ['\n'] => "newline"
  | .operator o => if (redirectionKind? o).isSome then "redirection" else '"' :: o ++ ['"']
  | .word w =>
    match w.bare? with
    | some t => if t ∈ reserved then '"' :: t ++ ['"'] else "word"
    | none => "word"
  | .descriptor _ => "redirection"
  | .fault _ => []

def fail {α : Type} (expecting : Option Text) (line : Nat) : Tokens → Read α
  | [] => .error (.unexpected "end of file" expecting, line)
  | ⟨.fault e, l⟩ :: _ => .error (e, l)
  | ⟨t, l⟩ :: _ => .error (.unexpected (Token.shown t) expecting, l)

def bareWord? : Tokens → Option Text
  | ⟨.word w, _⟩ :: _ => w.bare?
  | _ => none

def atWord (t : Text) (ts : Tokens) : Bool := bareWord? ts = some t

def atOperator (o : Text) : Tokens → Bool
  | ⟨.operator o', _⟩ :: _ => o = o'
  | _ => false

def skipLineFeeds (ts : Tokens) : Tokens := ts.dropWhile fun p => p.token = .operator ['\n']

def atEnd (ts : Tokens) : Bool :=
  match ts with
  | [] => true
  | ⟨.operator o, _⟩ :: _ => o ∈ ([")", ";;"] : List Text)
  | _ =>
    match bareWord? ts with
    | some t => t ∈ (["then", "elif", "else", "fi", "do", "done", "esac", "\x7d"] : List Text)
    | none => false

def expectWord (t : Text) (end' : Nat) (ts : Tokens) : Read Unit :=
  if atWord t ts then .ok ((), ts.tail) else fail (some t) end' ts

def redirection? (ts : Tokens) : Option (Redirection × Tokens) :=
  let (given, ts) : Option Nat × Tokens := match ts with
    | ⟨.descriptor n, _⟩ :: r => (some n, r)
    | _ => (none, ts)
  match ts with
  | ⟨.operator o, _⟩ :: ⟨.word w, _⟩ :: r =>
    (redirectionKind? o).map fun (kind, usual) =>
      ({ descriptor := given.getD usual, kind, target := w }, r)
  | _ => none

def redirections : Nat → Tokens → List Redirection × Tokens
  | 0, ts => ([], ts)
  | n + 1, ts =>
    match redirection? ts with
    | none => ([], ts)
    | some (r, ts) =>
      let (rs, ts) := redirections n ts
      (r :: rs, ts)

/-- The assignments, words and redirections of a simple command. Assignments come before the first
word. -/
def simple : Nat → List (Text × Word) → List Word → List Redirection → Tokens →
    List (Text × Word) × List Word × List Redirection × Tokens
  | 0, as, ws, rs, ts => (as, ws, rs, ts)
  | n + 1, as, ws, rs, ts =>
    match redirection? ts with
    | some (r, ts) => simple n as ws (rs ++ [r]) ts
    | none =>
      match ts with
      | ⟨.word w, _⟩ :: rest =>
        match if ws = [] then w.assignment? else none with
        | some a => simple n (as ++ [a]) ws rs rest
        | none => simple n as (ws ++ [w]) rs rest
      | _ => (as, ws, rs, ts)

def wordList : Tokens → List Word × Tokens
  | ⟨.word w, _⟩ :: r =>
    let (ws, rest) := wordList r
    (w :: ws, rest)
  | ts => ([], ts)

def patterns (end' : Nat) : Tokens → Read (List Word)
  | ⟨.word w, _⟩ :: ⟨.operator o, l⟩ :: r =>
    if o = [')'] then .ok ([w], r)
    else if o = ['|'] then (patterns end' r).map fun (ws, rest) => (w :: ws, rest)
    else fail (some ")") end' (⟨.operator o, l⟩ :: r)
  | ⟨.word _, _⟩ :: r => fail (some ")") end' r
  | ts => fail (some ")") end' ts

def andThen : Statement → Statement → Statement
  | c, .nothing => c
  | .nothing, c => c
  | c, d => .sequence c d

mutual

/-- Commands up to a token that cannot start one. With `oneLine` a line feed ends them too. -/
def list (oneLine : Bool) (end' : Nat) : Nat → Tokens → Read Statement
  | 0, ts => .ok (.nothing, ts)
  | n + 1, ts =>
    let ts := if oneLine then ts else skipLineFeeds ts
    if atEnd ts || (oneLine && atOperator ['\n'] ts) then .ok (.nothing, ts)
    else
      match andOr end' n ts with
      | .error e => .error e
      | .ok (c, ts) =>
        let more (c : Statement) (ts : Tokens) : Read Statement :=
          (list oneLine end' n ts).map fun (d, ts) => (andThen c d, ts)
        if atOperator [';'] ts then more c ts.tail
        else if atOperator ['&'] ts then more (.background c) ts.tail
        else if atOperator ['\n'] ts then if oneLine then .ok (c, ts) else more c ts
        else if atEnd ts then .ok (c, ts)
        else fail none end' ts
  termination_by structural n => n

def andOr (end' : Nat) : Nat → Tokens → Read Statement
  | 0, ts => fail none end' ts
  | n + 1, ts =>
    match pipeline end' n ts with
    | .error e => .error e
    | .ok (c, ts) => andOrRest end' n c ts
  termination_by structural n => n

/-- What follows the first pipeline of a chain, which is read from left to right. -/
def andOrRest (end' : Nat) : Nat → Statement → Tokens → Read Statement
  | 0, c, ts => .ok (c, ts)
  | n + 1, c, ts =>
    let chained (join : Statement → Statement → Statement) : Read Statement :=
      match pipeline end' n (skipLineFeeds ts.tail) with
      | .error e => .error e
      | .ok (d, ts) => andOrRest end' n (join c d) ts
    if atOperator ['&', '&'] ts then chained .conjunction
    else if atOperator ['|', '|'] ts then chained .disjunction
    else .ok (c, ts)
  termination_by structural n => n

def pipeline (end' : Nat) : Nat → Tokens → Read Statement
  | 0, ts => fail none end' ts
  | n + 1, ts =>
    if atWord ['!'] ts then
      (pipeline end' n ts.tail).map fun (c, ts) => (.negation c, ts)
    else
      match command end' n ts with
      | .error e => .error e
      | .ok (c, ts) =>
        if atOperator ['|'] ts then
          (pipeline end' n (skipLineFeeds ts.tail)).map fun (d, ts) => (.pipe c d, ts)
        else .ok (c, ts)
  termination_by structural n => n

def command (end' : Nat) : Nat → Tokens → Read Statement
  | 0, ts => fail none end' ts
  | n + 1, ts =>
    let line := (ts.head?.map Placed.line).getD end'
    let finish (r : Read Statement) : Read Statement :=
      r.map fun (c, ts) =>
        match redirections ts.length ts with
        | ([], ts) => (c, ts)
        | (rs, ts) => (.redirected line c rs, ts)
    if atOperator ['('] ts then
      finish <| match body ")" end' n ts.tail with
        | .error e => .error e
        | .ok (c, ts) =>
          if atOperator [')'] ts then .ok (.subshell c, ts.tail) else fail (some ")") end' ts
    else
      match bareWord? ts with
      | none => simpleCommand line end' ts
      | some w =>
        if w = ['{'] then
          finish <| (closed "\x7d" end' n ts.tail)
        else if w = "if".toList then finish (conditional end' n ts.tail)
        else if w = "while".toList then finish (loop true end' n ts.tail)
        else if w = "until".toList then finish (loop false end' n ts.tail)
        else if w = "for".toList then finish (each end' n ts.tail)
        else if w = "case".toList then
          finish <| match ts.tail with
            | ⟨.word subject, _⟩ :: r =>
              match expectWord "in" end' (skipLineFeeds r) with
              | .error e => .error e
              | .ok ((), r) =>
                (clauses end' n (skipLineFeeds r)).map fun (cs, r) => (.choice subject cs, r)
            | r => fail none end' r
        else if w ∈ reserved then fail none end' ts
        else if isName w && atOperator ['('] ts.tail && atOperator [')'] ts.tail.tail then
          (command end' n (skipLineFeeds ts.tail.tail.tail)).map fun (c, ts) =>
            (.definition w c, ts)
        else simpleCommand line end' ts
  termination_by structural n => n

def body (close : Text) (end' : Nat) : Nat → Tokens → Read Statement
  | 0, ts => fail (some close) end' ts
  | n + 1, ts =>
    match skipLineFeeds ts with
    | [] => fail (some close) end' []
    | ts => if atEnd ts then fail none end' ts else list false end' n ts
  termination_by structural n => n

def closed (close : Text) (end' : Nat) : Nat → Tokens → Read Statement
  | 0, ts => fail (some close) end' ts
  | n + 1, ts =>
    match body close end' n ts with
    | .error e => .error e
    | .ok (c, ts) => (expectWord close end' ts).map fun (_, ts) => (c, ts)
  termination_by structural n => n

def conditional (end' : Nat) : Nat → Tokens → Read Statement
  | 0, ts => fail none end' ts
  | n + 1, ts =>
    match closed "then" end' n ts with
    | .error e => .error e
    | .ok (condition, ts) =>
      match body "fi" end' n ts with
      | .error e => .error e
      | .ok (consequence, ts) =>
        if atWord "elif" ts then
          (conditional end' n ts.tail).map fun (c, ts) => (.conditional condition consequence c, ts)
        else if atWord "else" ts then
          (closed "fi" end' n ts.tail).map fun (c, ts) =>
            (.conditional condition consequence c, ts)
        else
          (expectWord "fi" end' ts).map fun (_, ts) =>
            (.conditional condition consequence .nothing, ts)
  termination_by structural n => n

def loop (whileSuccess : Bool) (end' : Nat) : Nat → Tokens → Read Statement
  | 0, ts => fail none end' ts
  | n + 1, ts =>
    match closed "do" end' n ts with
    | .error e => .error e
    | .ok (condition, ts) =>
      (closed "done" end' n ts).map fun (c, ts) => (.loop whileSuccess condition c, ts)
  termination_by structural n => n

def each (end' : Nat) : Nat → Tokens → Read Statement
  | 0, ts => fail none end' ts
  | n + 1, ts =>
    match (bareWord? ts).filter isName with
    | none => .error (.badLoopVariable, (ts.head?.map Placed.line).getD end')
    | some name =>
      let ts := skipLineFeeds ts.tail
      let (words, ts) : Option (List Word) × Tokens :=
        if atWord "in" ts then
          let (ws, ts) := wordList ts.tail
          (some ws, ts)
        else (none, ts)
      let ts := skipLineFeeds (if atOperator [';'] ts then ts.tail else ts)
      match expectWord "do" end' ts with
      | .error e => .error e
      | .ok ((), ts) => (closed "done" end' n ts).map fun (c, ts) => (.each name words c, ts)
  termination_by structural n => n

def clauses (end' : Nat) : Nat → Tokens → Read Clauses
  | 0, ts => fail (some "esac") end' ts
  | n + 1, ts =>
    if atWord "esac" ts then .ok (.none, ts.tail)
    else
      match patterns end' (if atOperator ['('] ts then ts.tail else ts) with
      | .error e => .error e
      | .ok (ps, ts) =>
        match list false end' n ts with
        | .error e => .error e
        | .ok (c, ts) =>
          if atOperator [';', ';'] ts then
            (clauses end' n (skipLineFeeds ts.tail)).map fun (cs, ts) => (.clause ps c cs, ts)
          else (expectWord "esac" end' ts).map fun (_, ts) => (.clause ps c .none, ts)
  termination_by structural n => n

def simpleCommand (line end' : Nat) (ts : Tokens) : Read Statement :=
  match simple ts.length [] [] [] ts with
  | ([], [], [], ts) => fail none end' ts
  | (as, ws, rs, rest) =>
    match rest with
    | ⟨.fault e, l⟩ :: _ => .error (e, l)
    | _ => .ok (.simple line as ws rs, rest)

end

def linesFrom (end' : Nat) : Nat → Tokens → Script
  | 0, _ => { lines := [] }
  | n + 1, ts =>
    match skipLineFeeds ts with
    | [] => { lines := [] }
    | t :: r =>
      match list true end' (12 * (r.length + 2)) (t :: r) with
      | .error e => { lines := [], fault := some e }
      | .ok (c, rest) =>
        if rest = [] ∨ atOperator ['\n'] rest then
          let s := linesFrom end' n rest
          { s with lines := c :: s.lines }
        else
          match (fail none end' rest : Read Unit) with
          | .error e => { lines := [], fault := some e }
          | .ok _ => { lines := [c] }

def ofText (t : Text) : Script :=
  let ts := tokens t
  linesFrom (t.count '\n' + 1) (ts.length + 1) ts

end Script

end TriBench.Shell
