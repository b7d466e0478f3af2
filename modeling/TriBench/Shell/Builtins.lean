import TriBench.Shell.Expansion
import TriBench.Shell.Image

/-!
# Commands of the shell itself

The ones that change the process: its variables, arguments, directory, traps and jobs, or the way it
goes on.
-/

namespace TriBench.Shell.Builtin

def complain (message : Text) : Act Unit := do
  let p ← Act.process
  Act.say 2 (p.name ++ ": " ++ Text.ofNat p.line ++ ": " ++ message ++ ['\n'])

abbrev RunText := Text → Act Nat

/-! ## Signals -/

def signals : List (Text × Nat) :=
  [("EXIT", 0), ("HUP", 1), ("INT", 2), ("QUIT", 3), ("ILL", 4), ("TRAP", 5), ("ABRT", 6), ("BUS", 7),
   ("FPE", 8), ("KILL", 9), ("USR1", 10), ("SEGV", 11), ("USR2", 12), ("PIPE", 13), ("ALRM", 14),
   ("TERM", 15), ("STKFLT", 16), ("CHLD", 17), ("CONT", 18), ("STOP", 19), ("TSTP", 20), ("TTIN", 21),
   ("TTOU", 22), ("URG", 23), ("XCPU", 24), ("XFSZ", 25), ("VTALRM", 26), ("PROF", 27), ("WINCH", 28),
   ("PWR", 30), ("SYS", 31)]

def signal? (t : Text) : Option Nat :=
  match Text.digits? t with
  | some n => if n < 65 then some n else none
  | none =>
    let name := t.map Char.toUpper
    signals.lookup (if "SIG".toList.isPrefixOf name then name.drop 3 else name)

def signalName (n : Nat) : Text := ((signals.find? fun s => s.2 = n).map Prod.fst).getD (Text.ofNat n)

def deliver (run : RunText) (signal : Nat) : Act Unit := do
  let p ← Act.process
  let trapped := if signal = 9 ∨ signal = 19 then none else p.traps.lookup (signalName signal)
  match trapped with
  | some action =>
    if action ≠ [] then
      let _ ← run action
      Act.modifyProcess fun q => { q with status := p.status }
  | none =>
    if signal ∈ [0, 17, 18, 23, 28] then pure ()
    else if signal ∈ [19, 20, 21, 22] then throw .never
    else throw (.killed p.shellPid signal)

def killOne (run : RunText) (signal : Nat) (target : Text) : Act Nat := do
  let p ← Act.process
  let w ← Act.world
  let missing : Act Nat := do
    complain "kill: No such process\n"
    return 1
  if target = ['0'] ∨ target = '-' :: Text.ofNat p.shellPid then
    if signal ≠ 0 then
      for id in List.range w.jobs.length do Act.killJob id signal
    deliver run signal
    return 0
  else
    let (place, digits) : Bool × Text := match target with
      | '%' :: n => (true, n)
      | '-' :: n => (false, n)
      | n => (false, n)
    match Text.digits? digits with
    | none =>
      complain ("kill: Illegal number: " ++ target)
      return 2
    | some n =>
      if place = false ∧ n = p.shellPid then
        deliver run signal
        return 0
      else
        let isTarget (id : Nat) (j : Job) : Bool :=
          if place then (p.jobs.idxOf? id).map (· + 1) = some n else j.pid = n
        match w.jobs.zipIdx.find? fun (j, id) => isTarget id j with
        | some (j, id) =>
          if (j.endsAt.map (decide <| p.clock ≤ ·)).getD true then
            if signal ≠ 0 then Act.killJob id signal
            return 0
          else missing
        | none => missing

/-- The signal and the targets that arguments name, or the letter that is no option. -/
def killArguments : List Text → Except Char (Option Nat × List Text)
  | [] => .ok (none, [])
  | ('-' :: t) :: r =>
    match signal? t, t with
    | some n, _ => .ok (some n, r)
    | none, ['-'] => .ok (some 15, r)
    | none, ['s'] =>
      match r with
      | name :: ('-' :: c :: _) :: _ => if c = '-' then .ok (signal? name, r.drop 2) else .error c
      | name :: targets => .ok (signal? name, targets)
      | [] => .ok (none, [])
    | none, c :: _ => .error c
    | none, [] => .ok (some 15, ('-' :: t) :: r)
  | targets => .ok (some 15, targets)

def kill (run : RunText) (args : List Text) : Act Nat := do
  match killArguments args with
  | .error c =>
    complain ("kill: Illegal option -" ++ [c])
    return 2
  | .ok (some signal, t :: ts) =>
    let mut result := 0
    for target in t :: ts do result := max result (← killOne run signal target)
    return result
  | .ok _ =>
    complain ("kill: Usage: kill [-s sigspec | -signum | -sigspec] [pid | job]... or\n" ++
      "kill -l [exitstatus]")
    return 2

/-- Sets what is done on signals: an empty action ignores them, and a dash or a number in its place
takes the action away. -/
def trap (args : List Text) : Act Nat := do
  match args with
  | [] =>
    for (s, action) in (← Act.process).traps do
      Act.say 1 ("trap -- '" ++ action ++ "' " ++ s ++ ['\n'])
    return 0
  | action :: names =>
    let removes := action = ['-'] ∨ (Text.digits? action).isSome
    let names := if removes ∧ action ≠ ['-'] then args else names
    let mut result := 0
    for t in names do
      match signal? t with
      | some n =>
        let s := signalName n
        Act.modifyProcess fun p =>
          let others := p.traps.filter fun e => e.1 ≠ s
          { p with traps := if removes then others else others ++ [(s, action)] }
      | none =>
        complain ("trap: " ++ t ++ ": bad trap")
        result := 1
    return result

/-! ## Jobs -/

def waitFor (id : Nat) : Act Nat := do
  match (← Act.world).jobs[id]? with
  | some { endsAt := some t, status, .. } =>
    Act.waitUntil t
    return code status
  | some _ => throw .never
  | none => return 127

def wait (args : List Text) : Act Nat := do
  let p ← Act.process
  match args with
  | [] =>
    for id in p.jobs do
      let _ ← waitFor id
    return 0
  | args =>
    let mut result := 0
    for t in args do
      let jobs := (← Act.world).jobs
      let wanted (id : Nat) : Bool :=
        match t with
        | '%' :: n => (p.jobs.idxOf? id).map (· + 1) = Text.digits? n
        | t => (jobs[id]?.map Job.pid) = Text.digits? t
      match p.jobs.find? wanted with
      | some id =>
        result := (← waitFor id)
        match (jobs[id]?).map Job.status with
        | some (.signalled signal) => Act.tellSignal signal
        | _ => pure ()
      | none => result := 127
    return result

/-! ## Directory -/

def simplified (t : Text) : Text :=
  let parts := (Text.splitOn '/' t).foldl (fun parts p =>
    if p = [] ∨ p = ['.'] then parts
    else if p = ['.', '.'] then parts.dropLast
    else parts ++ [p]) []
  Utility.locationText parts

def shownDirectory : Act Text := do
  return (← Act.valueOf? "PWD").getD (Utility.locationText (← Act.process).directory)

def cd (args : List Text) : Act Nat := do
  let old ← shownDirectory
  let args := if args.head? = some ['-', '-'] then args.tail else args
  let target ← match args with
    | [] => pure ((← Act.valueOf? "HOME").getD [])
    | ['-'] :: _ => pure ((← Act.valueOf? "OLDPWD").getD old)
    | t :: _ => pure t
  let shown := simplified (if target.head? = some '/' then target else old ++ '/' :: target)
  match (← Act.files).stat? ⟨if target = [] then ['.'] else shown⟩ with
  | some (loc, .directory) =>
    Act.modifyProcess fun p => { p with directory := loc }
    Act.assign "OLDPWD" old
    Act.assign "PWD" shown
    if args.head? = some ['-'] then Act.say 1 (shown ++ ['\n'])
    return 0
  | _ =>
    complain ("cd: can't cd to " ++ target)
    return 2

def pwd (args : List Text) : Act Nat := do
  if args.head? = some ['-', 'P'] then Utility.pwd []
  else
    Act.say 1 ((← shownDirectory) ++ ['\n'])
    return 0

/-! ## Variables and arguments -/

def readonly (args : List Text) : Act Nat := do
  for a in args do
    match Word.assignment? [.text false a] with
    | some (name, _) => Act.assign name ((a.dropWhile (· ≠ '=')).drop 1)
    | none => pure ()
  return 0

def export' (args : List Text) : Act Nat := do
  let _ ← readonly args
  for a in args do
    let name := a.takeWhile (· ≠ '=')
    if isName name then Act.exportVariable name
  return 0

def unset (args : List Text) : Act Nat := do
  for name in args.filter fun a => a.head? ≠ some '-' do
    Act.modifyProcess fun p => { p with
      bindings := p.bindings.filterKeys (· ≠ name)
      functions := if args.head? = some ['-', 'f'] then p.functions.filter fun f => f.1 ≠ name
        else p.functions }
  return 0

def shift (args : List Text) : Act Nat := do
  let n := (args.head?.bind Text.digits?).getD 1
  let p ← Act.process
  if n ≤ p.arguments.length then
    Act.modifyProcess fun p => { p with arguments := p.arguments.drop n }
    return 0
  else
    complain "shift: can't shift that many"
    throw (.exit 2)

def setFlag (on : Bool) (c : Char) (p : Process) : Process :=
  if c = 'e' then { p with strict := on }
  else if c = 'u' then { p with strictParameters := on }
  else p

def set : List Text → Act Nat
  | [] => return 0
  | ['-', '-'] :: args => do
    Act.modifyProcess fun p => { p with arguments := args }
    return 0
  | ['-', 'o'] :: name :: args => named true name args
  | ['+', 'o'] :: name :: args => named false name args
  | ('-' :: c :: t) :: args => do
    Act.modifyProcess fun p => (c :: t).foldl (fun p c => setFlag true c p) p
    set args
  | ('+' :: c :: t) :: args => do
    Act.modifyProcess fun p => (c :: t).foldl (fun p c => setFlag false c p) p
    set args
  | args => do
    Act.modifyProcess fun p => { p with arguments := args }
    return 0
where
  named (on : Bool) (name : Text) (args : List Text) : Act Nat := do
    match String.ofList name with
    | "errexit" => Act.modifyProcess (setFlag on 'e')
    | "nounset" => Act.modifyProcess (setFlag on 'u')
    | "pipefail" =>
      complain ("set: Illegal option -o pipefail")
      throw (.exit 2)
    | _ => pure ()
    set args

/-- The values for variables: fields of a line, of which the last holds all that is left. -/
def readFields (separators : Text) : List Text → Text → List (Text × Text)
  | [], _ => []
  | [name], t =>
    let blanks (c : Char) : Bool := c ∈ separators && (c = ' ' || c = '\t')
    [(name, ((t.dropWhile blanks).reverse.dropWhile blanks).reverse)]
  | name :: names, t =>
    let blanks (c : Char) : Bool := c ∈ separators && (c = ' ' || c = '\t')
    let t := t.dropWhile blanks
    let field := t.takeWhile (· ∉ separators)
    let rest := (t.drop field.length).dropWhile blanks
    let rest := match rest with
      | c :: r => if c ∈ separators ∧ (t.drop field.length).head? = some c then r else c :: r
      | [] => []
    (name, field) :: readFields separators names rest

def withoutBackslashes : Text → Text
  | '\\' :: c :: r => c :: withoutBackslashes r
  | ['\\'] => []
  | c :: r => c :: withoutBackslashes r
  | [] => []

/-- The bytes of a stream up to a line feed, whether there is one, and the bytes behind it. -/
def takeLine : Stream → Option (Bytes × Bool × Stream)
  | .finite content =>
    match content.dropWhile (· ≠ 10) with
    | _ :: rest => some (content.takeWhile (· ≠ 10), true, .finite rest)
    | [] => some (content, false, .finite [])
  | .endless period =>
    if 10 ∈ period then some (period.takeWhile (· ≠ 10), true, .endless period) else none

def read (args : List Text) : Act Nat := do
  let (letters, names) := Utility.switches args
  match takeLine (← Act.peek 0) with
  | none => throw .never
  | some (line, whole, rest) =>
    Act.setRest 0 rest
    let t := Utf8.decode line
    let t := if 'r' ∈ letters then t else withoutBackslashes t
    for (name, value) in readFields (← Expansion.separators) (if names = [] then ["REPLY"] else names) t do
      Act.assign name value
    return if whole then 0 else 1

/-! ## The way on -/

def exit (args : List Text) : Act Nat := do
  match args with
  | [] => throw (.exit (← Act.process).status)
  | a :: _ =>
    match Text.digits? a with
    | some n => throw (.exit (n % 256))
    | none =>
      complain ("exit: Illegal number: " ++ a)
      throw (.exit 2)

def return' (args : List Text) : Act Nat := do
  match args with
  | [] => throw (.leaveFunction (← Act.process).status)
  | a :: _ =>
    match Text.digits? a with
    | some n => throw (.leaveFunction n)
    | none =>
      complain ("return: Illegal number: " ++ a)
      throw (.exit 2)

def levels (args : List Text) : Nat := max 1 ((args.head?.bind Text.digits?).getD 1)

/-- The commands after whose failure the shell ends, and whose assignments stay. -/
def isSpecial (name : Text) : Bool :=
  name ∈ ([":", ".", "break", "continue", "eval", "exec", "exit", "export", "readonly", "return",
    "set", "shift", "trap", "unset"] : List Text)

def find? (run : RunText) (name : Text) : Option (List Text → Act Nat) :=
  match String.ofList name with
  | ":" => some fun _ => return 0
  | "true" => some fun _ => return 0
  | "false" => some fun _ => return 1
  | "break" => some fun args => throw (.leaveLoop (levels args))
  | "continue" => some fun args => throw (.nextRound (levels args))
  | "cd" => some cd
  | "echo" => some (Utility.echo true)
  | "exit" => some exit
  | "export" => some export'
  | "kill" => some (kill run)
  | "local" => some readonly
  | "printf" => some <| Utility.printfWith fun a r => complain <| "printf: " ++ a ++ match r with
    | .noNumber => ": expected numeric value"
    | .notOnlyNumber => ": not completely converted"
  | "pwd" => some pwd
  | "read" => some read
  | "readonly" => some readonly
  | "return" => some return'
  | "set" => some set
  | "shift" => some shift
  | "test" => some (Utility.test "test")
  | "[" => some (Utility.test "[")
  | "trap" => some trap
  | "umask" => some fun _ => return 0
  | "unset" => some unset
  | "wait" => some wait
  | _ => none

end TriBench.Shell.Builtin
