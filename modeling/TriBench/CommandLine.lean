import TriBench.Arguments
import TriBench.Config.Reader
import TriBench.Report.Console
import TriBench.Report.File
import TriBench.Report.Structured
import TriBench.Run

/-!
# The command line

From the arguments to the exit code. Faults in the arguments or in the configuration end the program
before any command is given; after that only a report that cannot be written makes it fail, whatever
becomes of the benchmarks.
-/

namespace TriBench

structure Completion where
  code : Nat
  stdout : Text := []
  stderr : Text := []
  files : FileSystem
  /-- The commands that were given. -/
  calls : List Call := []

namespace CommandLine

def title : Text := "Micro-benchmark runner comparing native, sandboxed and grate builds v0.1.0"

structure Environment (σ : Type) where
  files : FileSystem
  /-- Who answers commands, given the program that lends privileges. -/
  toolbox : Text → Toolbox σ
  tools : σ
  colours : Bool
  /-- How long the run takes by the clock on the wall. -/
  elapsedSeconds : Nat

inductive Failure
  | arguments (cause : Arguments.Invalid)
  | loading (cause : Config.LoadError)
  | resolving (cause : Config.ResolveError)
  | discovery (cause : Glob.PatternError)
  | report (cause : Report.WriteError)

def Failure.message : Failure → Text
  | arguments cause => cause.message
  | loading cause => cause.message
  | resolving cause => cause.message
  | discovery cause => cause.message
  | report cause => cause.message

/-- The exit code of a program that cannot go on. -/
def faultCode : Nat := 101

/-- The configuration for valid arguments: what the file says, or the defaults, with the time limit
of the arguments and absolute directories. -/
def configure (fs : FileSystem) (a : Arguments) : Except Failure Config := do
  let c ← match a.config with
    | some p => (Config.load fs p).mapError .loading
    | none => pure {}
  let c := { c with timeout := a.timeout.getD c.timeout }
  (c.resolve fs.workingPath).mapError .resolving

variable {σ : Type}

def duration (seconds : Nat) : Text :=
  let two (n : Nat) : Text := if n < 10 then '0' :: Text.ofNat n else Text.ofNat n
  Text.ofNat (seconds / 60) ++ 'm' :: two (seconds % 60) ++ ['s']

def progress (st : Setting σ) (blanks : Nat) (word rest : Text) : Text :=
  if st.quiet then [] else st.heading blanks word ++ ' ' :: rest ++ ['\n']

/-- The results where the arguments want them: in a file, or at the end of the output. -/
def deliver (st : Setting σ) (out : Option Path) (fs : FileSystem) (r : Results) :
    Except Failure (Text × FileSystem) :=
  match out with
  | none => .ok (Report.console r, fs)
  | some p =>
    match Report.write fs p (Report.structured r) with
    | .error e => .error (.report e)
    | .ok fs => .ok (progress st 5 "Written" ("results to " ++ p.quoted), fs)

def failed (c : Completion) (e : Failure) : Completion :=
  { c with code := 1, stderr := e.message ++ ['\n'] }

def runWith (env : Environment σ) (a : Arguments) (c : Config) : Completion :=
  let st : Setting σ :=
    { config := c, toolbox := env.toolbox c.tools.elevation, quiet := a.quiet, colours := env.colours }
  let start : Progress σ := { session := { files := env.files, tools := env.tools } }
  let (result, g) := (Run.all st a.verbose a.prefixes).run.run start
  let ran : Completion :=
    { code := 0, stdout := progress st 4 "Starting" title ++ g.session.printed
      files := g.session.files, calls := g.session.calls }
  match result with
  | .error _ => { ran with code := faultCode }
  | .ok (.error e) => failed ran (.discovery e)
  | .ok (.ok ()) =>
    let summary : Text := if a.quiet then [] else g.tally.box env.colours
    let ended : Completion :=
      { ran with
        stdout := ran.stdout ++ summary ++
          progress st 4 "Finished" ("running benchmarks in " ++ duration env.elapsedSeconds) }
    match deliver st a.out ended.files g.results with
    | .error e => failed ended e
    | .ok (text, files) => { ended with stdout := ended.stdout ++ text, files }

def runArguments (env : Environment σ) (a : Arguments) : Completion :=
  let idle : Completion := { code := 0, files := env.files }
  match a.validate with
  | .error e => failed idle (.arguments e)
  | .ok a =>
    match configure env.files a with
    | .error e => failed idle e
    | .ok c => runWith env a c

/-- Runs the program. The grammar of the arguments has an exit code of its own. -/
def run (env : Environment σ) (args : List Text) : Completion :=
  match Arguments.parse args with
  | .error .help => { code := 0, files := env.files }
  | .error _ => { code := 2, files := env.files }
  | .ok a => runArguments env a

end CommandLine

end TriBench
