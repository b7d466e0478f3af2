import TriBench.Shell.Arithmetic
import TriBench.Shell.Machine
import TriBench.Shell.Pattern
import TriBench.Shell.Token

/-!
# Expansion of words

The values of parameters, the output of commands and the results of arithmetic take the places of
their pieces. What comes from outside quotes is then split at separators, and a field that is a
pattern gives way to the paths that fit it, if there are any.
-/

namespace TriBench.Shell

inductive Fragment
  | char (m : Marked) (splits : Bool)
  /-- Something in quotes that is empty, and still makes a field. -/
  | void
  /-- The boundary between two arguments. -/
  | boundary
  deriving DecidableEq, Repr

namespace Expansion

abbrev Substitute := Text → Act Bytes

def fault {α : Type} (message : Text) : Act α := do
  let p ← Act.process
  Act.say 2 (p.name ++ ": " ++ Text.ofNat p.line ++ ": " ++ message ++ ['\n'])
  throw (.exit 2)

def orFault {α : Type} : Except SyntaxError α → Act α
  | .ok a => pure a
  | .error e => fault e.message

def separators : Act Text := return (← Act.valueOf? "IFS").getD [' ', '\t', '\n']

def parameter? (name : Text) : Act (Option Text) := do
  let p ← Act.process
  match name with
  | ['@'] => return if p.arguments = [] then none else some (Text.joinWith [' '] p.arguments)
  | ['*'] =>
    let joint := (← separators).take 1
    return if p.arguments = [] then none else some (Text.joinWith joint p.arguments)
  | ['#'] => return some (Text.ofNat p.arguments.length)
  | ['?'] => return some (Text.ofNat p.status)
  | ['$'] => return some (Text.ofNat p.shellPid)
  | ['!'] => return p.lastJob.map Text.ofNat
  | ['-'] => return some (if p.strict then ['e'] else [])
  | _ =>
    match Text.digits? name with
    | some 0 => return some p.name
    | some (n + 1) => return p.arguments[n]?
    | none => Act.valueOf? name

def ofText (quoted : Bool) (t : Text) : List Fragment :=
  if quoted ∧ t = [] then [.void] else t.map fun c => .char ⟨quoted, c⟩ !quoted

def ofArguments (quoted : Bool) : List Text → List Fragment
  | [] => []
  | [a] => ofText quoted a
  | a :: as => ofText quoted a ++ .boundary :: ofArguments quoted as

def marks (fs : List Fragment) : List Marked :=
  fs.filterMap fun f => match f with
    | .char m _ => some m
    | .void => none
    | .boundary => some ⟨false, ' '⟩

def plain (fs : List Fragment) : Text := (marks fs).map Marked.char

def trimLineFeeds (t : Text) : Text := (t.reverse.dropWhile (· = '\n')).reverse

def integerOf (p : Process) (name : Text) : Int :=
  let value := match Text.digits? name with
    | some (n + 1) => p.arguments[n]?
    | _ => (p.bindings.get? name).map Variable.value
  (value.bind Text.int64?).getD 0

def arithmetic (expression : Text) : Act Int := do
  let p ← Act.process
  match Arithmetic.evaluate (integerOf p) expression with
  | .ok x => return x
  | .error .divisionByZero =>
    fault ("arithmetic expression: division by zero: \"" ++ expression ++ ['"'])
  | .error .malformed =>
    fault ("arithmetic expression: expecting primary: \"" ++ expression ++ ['"'])

/-- What takes the place of a piece, given what an operand consists of. -/
def ofPiece (substitute : Substitute) (operand : Bool → Text → Act (List Fragment)) :
    Piece → Act (List Fragment)
  | .text quoted t =>
    return if quoted ∧ t = [] then [.void] else t.map fun c => .char ⟨quoted, c⟩ false
  | .output quoted source => do
    return ofText quoted (trimLineFeeds (Utf8.decode ((← substitute source).filter (· ≠ 0))))
  | .arithmetic quoted source => do
    return ofText quoted (Text.ofInt (← arithmetic (plain (← operand true source))))
  | .parameter quoted name usage => do
    let value ← parameter? name
    let isPresent (colon : Bool) : Bool := value.isSome && !(colon && value = some [])
    let own : List Fragment := ofText quoted (value.getD [])
    let ofOperand (t : Text) : Act (List Fragment) := do
      return (← operand quoted t).map fun f => match f with
        | .char m _ => .char m !m.quoted
        | f => f
    match usage with
    | .value =>
      let isArguments := name = ['@'] ∨ name = ['*']
      if value.isNone ∧ ¬ isArguments ∧ (← Act.process).strictParameters then
        fault (name ++ ": parameter not set")
      else if isArguments ∧ (name = ['@'] ∨ quoted = false) then
        return ofArguments quoted (← Act.process).arguments
      else return own
    | .length => return ofText quoted (Text.ofNat (Text.byteLength (value.getD [])))
    | .default colon t => if isPresent colon then return own else ofOperand t
    | .alternative colon t => if isPresent colon then ofOperand t else return ofText quoted []
    | .assign colon t =>
      if isPresent colon then return own
      else
        let fs ← ofOperand t
        Act.assign name (plain fs)
        return fs
    | .require colon t =>
      if isPresent colon then return own
      else
        let message ← operand quoted t
        fault (name ++ ": " ++
          if message ≠ [] then plain message
          else if colon then "parameter not set or null"
          else "parameter not set")
    | .cutStart longest t =>
      let items := Pattern.items (marks (← operand false t))
      return ofText quoted (Pattern.cutStart longest items (value.getD []))
    | .cutEnd longest t =>
      let items := Pattern.items (marks (← operand false t))
      return ofText quoted (Pattern.cutEnd longest items (value.getD []))

/-- What an operand consists of, with operands in it up to a depth. -/
def operandAt (substitute : Substitute) : Nat → Bool → Text → Act (List Fragment)
  | 0, _, _ => pure []
  | n + 1, quoted, t => do
    let w ← orFault (wordOf quoted t)
    return (← w.mapM (ofPiece substitute (operandAt substitute n))).flatten

/-- What a word consists of. An operand is longer than those in it. -/
def fragments (substitute : Substitute) (w : Word) : Act (List Fragment) := do
  let operand (quoted : Bool) (t : Text) := operandAt substitute (t.length + 1) quoted t
  return (← w.mapM (ofPiece substitute operand)).flatten

/-! ## Fields -/

/-- The fields that are complete, the one that has begun, and whether blanks have just ended one. -/
structure Splitting where
  fields : List (List Marked) := []
  current : Option (List Marked) := none
  afterBlank : Bool := false

def Splitting.close (s : Splitting) : Splitting :=
  match s.current with
  | some f => { s with fields := s.fields ++ [f], current := none }
  | none => s

def Splitting.step (separators : Text) (s : Splitting) : Fragment → Splitting
  | .void => { s with current := some (s.current.getD []), afterBlank := false }
  | .boundary => { s.close with afterBlank := false }
  | .char m splits =>
    if splits && m.char ∈ separators then
      if isBlank m.char || m.char = '\n' then
        { s.close with afterBlank := s.afterBlank || s.current.isSome }
      else if s.current.isNone && s.afterBlank then { s with afterBlank := false }
      else { s with fields := s.fields ++ [s.current.getD []], current := none, afterBlank := false }
    else { s with current := some (s.current.getD [] ++ [m]), afterBlank := false }

def split (separators : Text) (fs : List Fragment) : List (List Marked) :=
  (fs.foldl (Splitting.step separators) {}).close.fields

/-! ## Paths -/

def splitAtSlashes : List Marked → List (List Marked)
  | [] => [[]]
  | m :: r =>
    if m.char = '/' then [] :: splitAtSlashes r
    else
      match splitAtSlashes r with
      | [] => [[m]]
      | f :: fs => (m :: f) :: fs

/-- The paths that fit a pattern behind a path that ends in a slash or is empty. Names that start
with a dot fit only a pattern that starts with one. -/
def pathsBehind (files : FileSystem) : Text → List (List Marked) → List Text
  | before, [] => [before]
  | before, part :: parts =>
    let rest (name : Text) : List Text :=
      if parts = [] then [before ++ name] else pathsBehind files (before ++ name ++ ['/']) parts
    if Pattern.isPattern part then
      let names := files.namesIn ⟨if before = [] then ['.'] else before⟩
      let items := Pattern.items part
      names.flatMap fun name =>
        let hidden := name.head? = some '.' ∧ (part.head?.map Marked.char) ≠ some '.'
        if ¬ hidden ∧ Pattern.fits items name then rest name else []
    else rest (part.map Marked.char)

/-- The paths that fit a pattern in ascending order, or the pattern itself if there are none. -/
def paths (files : FileSystem) (field : List Marked) : List Text :=
  if Pattern.isPattern field then
    match (pathsBehind files [] (splitAtSlashes field)).filter fun p => files.has ⟨p⟩ with
    | [] => [field.map Marked.char]
    | ps => ps
  else [field.map Marked.char]

def fields (substitute : Substitute) (ws : List Word) : Act (List Text) := do
  let found ← ws.mapM fun w => do
    let fs ← fragments substitute w
    let files ← Act.files
    return (split (← separators) fs).flatMap (paths files)
  return found.flatten

def text (substitute : Substitute) (w : Word) : Act Text := return plain (← fragments substitute w)

def pattern (substitute : Substitute) (w : Word) : Act (List Pattern.Item) :=
  return Pattern.items (marks (← fragments substitute w))

end Expansion

end TriBench.Shell
