import TriBench.Shell.Builtins
import TriBench.Shell.Script

/-!
# Carrying out commands

A command is carried out by recursion on its structure. What is not part of it but has to be read
first (the output of commands in words, functions, scripts) is carried out one level deeper, and
there is a bound on the levels. A loop has a bound too; one that goes on beyond it never ends.
-/

namespace TriBench.Shell

structure Mode where
  /-- Its failure is looked at and does not end a strict shell. -/
  tested : Bool := false
  /-- Nothing follows it in its process, whose place it takes. -/
  last : Bool := false

abbrev Deeper := Mode → Statement → Act Nat

namespace Evaluation

def setStatus (n : Nat) : Act Unit := Act.modifyProcess fun p => { p with status := n }

/-- Ends a strict shell after a failure that nobody looks at. -/
def settle (mode : Mode) (n : Nat) : Act Nat := do
  setStatus n
  if n ≠ 0 ∧ mode.tested = false ∧ (← Act.process).strict then throw (.exit n)
  return n

/-! ## Scripts -/

def runLines (deeper : Deeper) (last : Bool) : List Statement → Act Nat
  | [] => return (← Act.process).status
  | [c] => do
    let n ← deeper { last } c
    setStatus n
    return n
  | c :: cs => do
    setStatus (← deeper {} c)
    runLines deeper last cs

def runScript (deeper : Deeper) (last : Bool) (s : Script) : Act Nat := do
  match s.fault with
  | none => runLines deeper last s.lines
  | some (e, line) =>
    let _ ← runLines deeper false s.lines
    let p ← Act.process
    Act.say 2 (p.name ++ ": " ++ Text.ofNat line ++ ": " ++ e.message ++ ['\n'])
    throw (.exit 2)

def runText (deeper : Deeper) (t : Text) : Act Nat := do
  let line := (← Act.process).line
  let n ← runScript deeper false (Script.ofText t)
  Act.modifyProcess fun p => { p with line }
  return n

def ending (deeper : Deeper) (body : Act Nat) : Act Nat := do
  let finish (n : Nat) : Act Nat := do
    match (← Act.process).traps.lookup "EXIT".toList with
    | none => return n
    | some action =>
      Act.modifyProcess fun p => { p with status := n, traps := p.traps.filter fun t => t.1 ≠ "EXIT".toList }
      match ← Act.contained (runText deeper action) with
      | .ok _ => return n
      | .error (.exit m) => return m
      | .error e => throw e
  match ← Act.contained body with
  | .ok n => finish n
  | .error (.exit n) => finish n
  | .error e => throw e

/-- Carries out a copy of the shell, which keeps of the traps only those that ignore signals. -/
def copy (deeper : Deeper) (change : Process → Process) (body : Act Nat) : Act Act.Child :=
  Act.child (fun p => change { p with traps := p.traps.filter fun t => t.2 = [], jobs := [] })
    (ending deeper body)

def substitute (deeper : Deeper) : Expansion.Substitute := fun source => do
  let pipe ← Act.newPipe
  let c ← copy deeper (Act.setDescriptor 1 (some (.pipe pipe)))
    (runScript deeper true (Script.ofText source))
  let s ← Act.drain pipe c
  Act.waitUntil s.readyAt
  let n ← Act.awaitTelling c
  Act.modifyProcess fun p => { p with substituted := n }
  Utility.whole s.rest

/-! ## Redirections -/

def openReason (creating : Bool) (e : IoError) : Text :=
  if e = .notFound ∨ e = .notDirectory then
    if creating then "Directory nonexistent" else "No such file"
  else Utility.reason e

def openFile (kind : Redirection.Kind) (target : Text) : Act (Except Text Descriptor) := do
  let fs ← Act.files
  match kind, String.ofList target with
  | .input, "/dev/zero" => return .ok (← Act.newSource ⟨.endless [0], 0⟩)
  | _, "/dev/null" => return .ok .void
  | .input, _ =>
    match fs.read ⟨target⟩ with
    | .ok content => return .ok (← Act.newSource ⟨.finite content, 0⟩)
    | .error .isDirectory => return .ok .void
    | .error e => return .error ("cannot open " ++ target ++ ": " ++ openReason false e)
  | _, "/dev/stdout" => return .ok ((← Act.descriptor? 1).getD .void)
  | _, "/dev/stderr" => return .ok ((← Act.descriptor? 2).getD .void)
  | kind, _ =>
    let keeps := kind = .append ∧ fs.isFile ⟨target⟩
    match if keeps then .ok fs else fs.writeFile ⟨target⟩ [] with
    | .error e => return .error ("cannot create " ++ target ++ ": " ++ openReason true e)
    | .ok fs =>
      Act.setFiles fs
      match fs.stat? ⟨target⟩ with
      | some (loc, _) => return .ok (.file loc)
      | none => return .ok .void

/-- Carries out redirections from left to right; the first that fails is the last. -/
def redirect (deeper : Deeper) : List Redirection → Act Bool
  | [] => return true
  | r :: rs => do
    let target ← Expansion.text (substitute deeper) r.target
    let opened : Except Text (Option Descriptor) ←
      match r.kind with
      | .duplicate =>
        if target = ['-'] then pure (.ok none)
        else
          match Text.digits? target with
          | none => pure (.error (target ++ ": bad fd number"))
          | some d =>
            match ← Act.descriptor? d with
            | some x => pure (.ok (some x))
            | none => pure (.error (Text.ofNat d ++ ": Bad file descriptor"))
      | .document => pure (.ok (some (← Act.newSource ⟨.finite (Text.toBytes target), 0⟩)))
      | kind => pure ((← openFile kind target).map some)
    match opened with
    | .error message =>
      Builtin.complain message
      return false
    | .ok d =>
      Act.modifyProcess (Act.setDescriptor r.descriptor d)
      redirect deeper rs

/-- Carries out a command with redirections. They are for good if nothing follows it; otherwise the
descriptors are put back whatever happens. -/
def redirected (deeper : Deeper) (mode : Mode) (rs : List Redirection) (body : Act Nat) : Act Nat := do
  if rs = [] then body
  else
    let before ← Act.process
    if ← redirect deeper rs then
      if mode.last then
        Act.modifyProcess (Act.releasing before)
        body
      else
        let result ← Act.contained body
        Act.modifyProcess fun p => { p with descriptors := before.descriptors }
        match result with
        | .ok n => return n
        | .error e => throw e
    else
      Act.modifyProcess fun p => { p with descriptors := before.descriptors }
      return 2

/-! ## Programs -/

def kept (p : Process) : OrderedMap Text Variable :=
  p.bindings.filterKeys fun name => ((p.bindings.get? name).map Variable.exported).getD false

def shellArguments : List Text → Text → Text × List Text
  | ['-', '-'] :: r, flags => (flags, r)
  | ['-', 'o'] :: name :: r, flags =>
    shellArguments r (if name = "errexit".toList then 'e' :: flags else flags)
  | ('-' :: c :: t) :: r, flags => shellArguments r (flags ++ c :: t)
  | r, flags => (flags, r)

def shell (deeper : Deeper) (name : Text) (args : List Text) : Act Nat := do
  let (flags, rest) := shellArguments args []
  let pid ← Act.newPid
  let begin' (name : Text) (arguments : List Text) : Act Unit :=
    Act.modifyProcess fun p =>
      flags.foldl (fun p c => Builtin.setFlag true c p)
        { p with
          pid, shellPid := pid, name, line := 1, arguments, bindings := kept p
          traps := p.traps.filter fun t => t.2 = [], functions := [], status := 0, strict := false
          strictParameters := false, jobs := [], lastJob := none }
  let run (t : Text) : Act Nat := ending deeper (runScript deeper false (Script.ofText t))
  begin' name []
  if 'c' ∈ flags then
    match rest with
    | [] =>
      Act.say 2 (name ++ ": 0: -c requires an argument\n")
      return 2
    | script :: more =>
      begin' (more.headD name) more.tail
      run script
  else
    match rest with
    | [] => run (Utf8.decode (← Utility.whole (← Act.readAll 0)))
    | file :: more =>
      match (← Act.files).read ⟨file⟩ with
      | .ok content =>
        begin' file more
        run (Utf8.decode content)
      | .error .isDirectory => return 0
      | .error e =>
        Act.say 2 (name ++ ": 0: cannot open " ++ file ++ ": " ++ openReason false e ++ ['\n'])
        return 2

def setting? (a : Text) : Option (Text × Text) :=
  match a.dropWhile (· ≠ '=') with
  | _ :: value => if a.head? = some '=' then none else some (a.takeWhile (· ≠ '='), value)
  | [] => none

/-- The arguments of `env`: what it does to variables, its directory, and the program it starts. -/
def environment : List Text → Act (List Text)
  | ['-', 'i'] :: r => do
    Act.modifyProcess fun p => { p with bindings := .empty }
    environment r
  | ['-'] :: r => do
    Act.modifyProcess fun p => { p with bindings := .empty }
    environment r
  | ['-', 'u'] :: name :: r => do
    Act.modifyProcess fun p => { p with bindings := p.bindings.filterKeys (· ≠ name) }
    environment r
  | ['-', 'C'] :: directory :: r => do
    match (← Act.files).stat? ⟨directory⟩ with
    | some (loc, .directory) => Act.modifyProcess fun p => { p with directory := loc }
    | _ =>
      Utility.complain ("cannot change directory to " ++ Utility.inApostrophes directory ++
        ": No such file or directory")
      throw (.exit 125)
    environment r
  | ['-', '-'] :: r => environment r
  | a :: r => do
    match setting? a with
    | some (name, value) =>
      Act.assign name value
      Act.exportVariable name
      environment r
    | none => return a :: r
  | [] => return []

def printVariables : Act Nat := do
  let p ← Act.process
  for (name, v) in p.bindings.entries do
    if v.exported then Act.say 1 (name ++ '=' :: v.value ++ ['\n'])
  return 0

/-- Carries out a program of the system. Those that start others have fewer arguments to pass
on. -/
def program (deeper : Deeper) : Nat → Text → Text → List Text → Act Nat
  | 0, _, _, _ => throw .never
  | n + 1, name, called, args => do
    let start : List Text → Act Nat
      | [] => return 0
      | called :: args => do
        match Image.orScript (← Act.files) called with
        | .ok image =>
          program deeper n image.program (image.calledAs.getD called) (image.leading ++ args)
        | .error e =>
          Utility.complain (Utility.inApostrophes called ++ ": " ++ Utility.reason e)
          return if e = .notFound ∨ e = .notDirectory then 127 else 126
    if name ∈ shells then shell deeper called args
    else
      Act.modifyProcess fun p => { p with name := called }
      match String.ofList name with
      | "env" =>
        match ← environment args with
        | [] => printVariables
        | rest =>
          match rest with
          | ('-' :: c :: _) :: _ =>
            let _ ← Utility.misused ("invalid option -- " ++ Utility.inApostrophes [c])
            return 125
          | _ => start rest
      | "printenv" =>
        match args with
        | [] => printVariables
        | a :: _ =>
          match (← Act.process).bindings.get? a with
          | some v =>
            Act.say 1 (v.value ++ ['\n'])
            return 0
          | none => return 1
      | "timeout" =>
        match args with
        | time :: rest =>
          match Utility.duration? time with
          | some (some millis) =>
            let p ← Act.process
            let limit := p.clock + millis
            if millis = 0 ∨ p.limit ≤ limit then start rest
            else
              let c ← Act.child (fun p => { p with limit }) (start rest)
              match c.status with
              | some _ =>
                let status ← Act.await c
                return code status
              | none =>
                Act.waitUntil limit
                return 124
          | _ => Utility.misused ("invalid time interval " ++ Utility.inApostrophes time)
        | [] => Utility.missingOperand
      | "nohup" => start args
      | "nice" => start args
      | "setsid" => start args
      | _ =>
        match Utility.find? name with
        | some utility => utility args
        | none => return 127

/-- Carries out an image in the process itself, which takes a moment. -/
def runImage (deeper : Deeper) (image : Image) (called : Text) (args : List Text) : Act Nat := do
  Act.pause 1
  program deeper (args.length + 3) image.program (image.calledAs.getD called) (image.leading ++ args)

def external (deeper : Deeper) (mode : Mode) (complaint : Text → Act Unit)
    (assignments : List (Text × Text)) (name : Text) (args : List Text) : Act Nat := do
  match Image.orScript (← Act.files) name with
  | .error e =>
    if e = .notFound ∨ e = .notDirectory then
      complaint (name ++ ": not found")
      return 127
    else
      complaint (name ++ ": " ++ Utility.reason e)
      return 126
  | .ok image =>
    let c ← Act.child id do
      for (key, value) in assignments do
        Act.assign key value
        Act.exportVariable key
      runImage deeper image name args
    if mode.last ∧ (← Act.process).traps = [] then
      match ← Act.await c with
      | .exited n => return n
      | .signalled signal => throw (.killed (← Act.process).pid signal)
    else Act.awaitTelling c

/-! ## Simple commands -/

def call (deeper : Deeper) (body : Statement) (args : List Text) : Act Nat := do
  let arguments := (← Act.process).arguments
  Act.modifyProcess fun p => { p with arguments := args }
  let result ← Act.contained (deeper {} body)
  Act.modifyProcess fun p => { p with arguments }
  match result with
  | .ok n => return n
  | .error (.leaveFunction n) => return n
  | .error e => throw e

def source (deeper : Deeper) (args : List Text) : Act Nat := do
  match args with
  | [] => return 0
  | file :: _ =>
    match (← Act.files).read ⟨file⟩ with
    | .error _ =>
      Builtin.complain (".: cannot open " ++ file ++ ": No such file")
      throw (.exit 2)
    | .ok content =>
      match ← Act.contained (runText deeper (Utf8.decode content)) with
      | .ok n => return n
      | .error (.leaveFunction n) => return n
      | .error e => throw e

/-- What `command -v` says of a name. -/
def describe (name : Text) : Act Nat := do
  let p ← Act.process
  if (p.functions.lookup name).isSome ∨ (Builtin.find? (fun _ => return 0) name).isSome ∨
      name ∈ (["eval", "exec", "command", "."] : List Text) then
    Act.say 1 (name ++ ['\n'])
    return 0
  else if '/' ∉ name ∧ name ∈ systemPrograms then
    Act.say 1 ("/usr/bin/" ++ name ++ ['\n'])
    return 0
  else if '/' ∈ name ∧ Image.exists? (← Act.files) name then
    Act.say 1 (name ++ ['\n'])
    return 0
  else return 127

def named (deeper : Deeper) (mode : Mode) (functions : Bool) (assignments : List (Text × Text))
    (name : Text) (args : List Text) : Act Nat := do
  let p ← Act.process
  match if functions then p.functions.lookup name else none with
  | some body =>
    for (key, value) in assignments do Act.assign key value
    call deeper body args
  | none =>
    match String.ofList name, args with
    | "eval", args => runText deeper (Text.joinWith [' '] args)
    | ".", args => source deeper args
    | "exec", [] => return 0
    | "exec", called :: args =>
      let complaint (t : Text) := Builtin.complain ("exec: " ++ t)
      let n ← external deeper { mode with last := true } complaint assignments called args
      throw (.exit n)
    | _, _ =>
      match Builtin.find? (runText deeper) name with
      | some builtin =>
        for (key, value) in assignments do Act.assign key value
        let n ← builtin args
        if ¬ Builtin.isSpecial name then
          for (key, _) in assignments do
            match p.bindings.get? key with
            | some v => Act.modifyProcess fun p => { p with bindings := p.bindings.insert key v }
            | none => Act.modifyProcess fun p =>
              { p with bindings := p.bindings.filterKeys (· ≠ key) }
        return n
      | none => external deeper mode Builtin.complain assignments name args

def afterCommand (deeper : Deeper) (mode : Mode) (assignments : List (Text × Text)) :
    List Text → Act Nat
  | [] => return 0
  | ['-', 'v'] :: name :: _ => describe name
  | ['-', 'p'] :: name :: args => named deeper mode false assignments name args
  | name :: args => named deeper mode false assignments name args

def simple (deeper : Deeper) (mode : Mode) (line : Nat) (assignments : List (Text × Word))
    (words : List Word) (rs : List Redirection) : Act Nat := do
  Act.modifyProcess fun p => { p with line, substituted := 0 }
  let fields ← Expansion.fields (substitute deeper) words
  match fields with
  | [] =>
    let n ← redirected deeper {} rs do
      for (name, w) in assignments do
        Act.assign name (← Expansion.text (substitute deeper) w)
      return (← Act.process).substituted
    settle mode n
  | name :: args =>
    let permanent := name = "exec".toList ∧ args = []
    let special := Builtin.isSpecial name
    let run : Act Nat := do
      let values ← assignments.mapM fun (key, w) =>
        return (key, ← Expansion.text (substitute deeper) w)
      if name = "command".toList then afterCommand deeper mode values args
      else named deeper mode true values name args
    if permanent then
      if ← redirect deeper rs then settle mode 0 else throw (.exit 2)
    else
      let before := (← Act.process).descriptors
      if rs = [] then settle mode (← run)
      else if mode.last ∨ ¬ special then settle mode (← redirected deeper mode rs run)
      else if ← redirect deeper rs then
        let result ← Act.contained run
        Act.modifyProcess fun p => { p with descriptors := before }
        match result with
        | .ok n => settle mode n
        | .error e => throw e
      else throw (.exit 2)

/-! ## Compound commands -/

def maxRounds : Nat := 20000

/-- Carries out the body of a loop: its exit code, and whether the loop goes on. -/
def round (body : Act Nat) : Act (Nat × Bool) := do
  match ← Act.contained body with
  | .ok n => return (n, true)
  | .error (.leaveLoop k) => if 1 < k then throw (.leaveLoop (k - 1)) else return (0, false)
  | .error (.nextRound k) => if 1 < k then throw (.nextRound (k - 1)) else return (0, true)
  | .error e => throw e

def repeat' (condition : Act Bool) (body : Act Nat) : Nat → Nat → Act Nat
  | 0, _ => throw .never
  | n + 1, status => do
    let (holds, goesOn) ← do
      match ← Act.contained condition with
      | .ok b => pure (b, true)
      | .error (.leaveLoop _) => pure (false, false)
      | .error e => throw e
    if holds && goesOn then
      let (status, goesOn) ← round body
      if goesOn then repeat' condition body n status else return status
    else return status

def forEach (name : Text) (body : Act Nat) : List Text → Nat → Act Nat
  | [], status => return status
  | v :: vs, _ => do
    Act.assign name v
    let (status, goesOn) ← round body
    if goesOn then forEach name body vs status else return status

def isAnyPattern (deeper : Deeper) (subject : Text) : List Word → Act Bool
  | [] => return false
  | w :: ws => do
    if Pattern.fits (← Expansion.pattern (substitute deeper) w) subject then return true
    else isAnyPattern deeper subject ws

/-- Two programs with a pipe between them, which start at the same time. -/
def pipe (deeper : Deeper) (left right : Act Nat) : Act Nat := do
  let pipe ← Act.newPipe
  let c ← copy deeper (Act.setDescriptor 1 (some (.pipe pipe))) left
  let d ← Act.newSource (← Act.drain pipe c)
  let e ← copy deeper (Act.setDescriptor 0 (some d)) right
  let _ ← Act.awaitTelling c
  Act.awaitTelling e

mutual

def evaluate (deeper : Deeper) : Mode → Statement → Act Nat
  | _, .nothing => return 0
  | mode, .simple line assignments words rs => simple deeper mode line assignments words rs
  | mode, .redirected line body rs => do
    Act.modifyProcess fun p => { p with line }
    redirected deeper mode rs (evaluate deeper mode body)
  | mode, .pipe left right => do
    settle mode (← pipe deeper (evaluate deeper { last := true } left)
      (evaluate deeper { last := true } right))
  | _, .negation c => do
    let n ← evaluate deeper { tested := true } c
    let n := if n = 0 then 1 else 0
    setStatus n
    return n
  | mode, .conjunction left right => do
    let n ← evaluate deeper { tested := true } left
    setStatus n
    if n = 0 then evaluate deeper mode right else return n
  | mode, .disjunction left right => do
    let n ← evaluate deeper { tested := true } left
    setStatus n
    if n = 0 then return n else evaluate deeper mode right
  | mode, .sequence first rest => do
    setStatus (← evaluate deeper { mode with last := false } first)
    evaluate deeper mode rest
  | _, .background c => do
    Act.background do
      Act.modifyProcess fun p => { p with traps := p.traps.filter fun t => t.2 = [] }
      ending deeper (evaluate deeper { last := true } c)
    setStatus 0
    return 0
  | mode, .subshell body => do
    if mode.last ∧ (← Act.process).traps = [] then evaluate deeper mode body
    else
    let c ← copy deeper id (evaluate deeper { tested := mode.tested, last := true } body)
    settle mode (← Act.awaitTelling c)
  | mode, .conditional condition consequence alternative => do
    let n ← evaluate deeper { tested := true } condition
    setStatus n
    if n = 0 then evaluate deeper mode consequence else evaluate deeper mode alternative
  | mode, .loop whileSuccess condition body => do
    let holds : Act Bool := do
      let n ← evaluate deeper { tested := true } condition
      setStatus n
      return (n = 0) = whileSuccess
    let once : Act Nat := do
      let n ← evaluate deeper { mode with last := false } body
      setStatus n
      return n
    repeat' holds once maxRounds 0
  | mode, .each name words body => do
    let values ← match words with
      | some ws => Expansion.fields (substitute deeper) ws
      | none => pure (← Act.process).arguments
    let once : Act Nat := do
      let n ← evaluate deeper { mode with last := false } body
      setStatus n
      return n
    forEach name once values 0
  | mode, .choice subject clauses => do
    choose deeper mode (← Expansion.text (substitute deeper) subject) clauses
  | _, .definition name body => do
    Act.modifyProcess fun p =>
      { p with functions := (name, body) :: p.functions.filter fun f => f.1 ≠ name }
    return 0

def choose (deeper : Deeper) (mode : Mode) (subject : Text) : Clauses → Act Nat
  | .none => return 0
  | .clause patterns body rest => do
    if ← isAnyPattern deeper subject patterns then evaluate deeper mode body
    else choose deeper mode subject rest

end

def maxDepth : Nat := 100

def evaluateAt : Nat → Deeper
  | 0 => fun _ _ => throw .never
  | n + 1 => evaluate (evaluateAt n)

end Evaluation

def runProgram (image : Image) (called : Text) (args : List Text) : Act Nat :=
  Evaluation.runImage (Evaluation.evaluateAt Evaluation.maxDepth) image called args

end TriBench.Shell
