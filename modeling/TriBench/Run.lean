import TriBench.Build
import TriBench.Discovery
import TriBench.Execution
import TriBench.Results
import TriBench.Tally

/-!
# Runs

Benchmarks are built, executed and taken into the results one after another. A simple benchmark is
measured in the sandbox and natively, a composite in the sandbox alone. Whatever fails in one
benchmark is recorded and does not end the run.
-/

namespace TriBench

structure Progress (σ : Type) where
  session : Session σ
  results : Results := .empty
  tally : Tally := {}

/-- A step of a run, which only a fault can end. -/
abbrev Running (σ α : Type) := ExceptT Fault (StateM (Progress σ)) α

namespace Run

variable {σ ε α : Type}

/-- A step of the session, with its failure as a value. -/
def attempt (a : Act σ ε α) : Running σ (Except ε α) := do
  let s ← get
  let (r, session) := a.run s.session
  set { s with session }
  match r with
  | .error f => throw f
  | .ok r => pure r

def print (st : Setting σ) (line : Text) : Running σ Unit :=
  if st.quiet then pure ()
  else modify fun s => { s with session.printed := s.session.printed ++ line ++ ['\n'] }

def record (st : Setting σ) (verbose : Bool) (name : Text) (o : Outcome) : Running σ Unit := do
  let e : Element := ⟨name, o⟩
  match e.text st.colours verbose with
  | none => pure ()
  | some text => print st text
  modify fun s => { s with tally := s.tally.push e }

def measure (p : Platform) (execution : Act σ RunError Text) :
    Running σ (Platform × Except Failure Unit) := do
  match ← attempt execution with
  | .error e => pure (p, .error (.execution e))
  | .ok output =>
    let s ← get
    match s.results.absorb p output with
    | .error e => pure (p, .error (.malformedOutput p e))
    | .ok (results, _) =>
      set { s with results }
      pure (p, .ok ())

def outcomeOf (ms : List (Platform × Except Failure Unit)) : Outcome :=
  .classify
    (ms.filterMap fun (p, r) => match r with
      | .ok () => some p
      | .error _ => none)
    (ms.filterMap fun (_, r) => match r with
      | .ok () => none
      | .error e => some e)

def simple (st : Setting σ) (b : Benchmark) : Running σ Outcome := do
  match ← attempt (Build.both st b) with
  | .error e => pure (.skipped [.ofBuild e])
  | .ok (program, module) =>
    let lind ← measure .lind (Execution.sandboxed st [module.path] .lind)
    let linux ← measure .linux (Execution.native st program.path)
    pure (outcomeOf [lind, linux])

def composite (st : Setting σ) (b : Benchmark) : Running σ Outcome := do
  match ← attempt (Build.parts st b.parts) with
  | .error e => pure (.skipped [.ofBuild e])
  | .ok artifacts =>
    let grate ← measure .grate (Execution.sandboxed st (artifacts.map Artifact.path) .grate)
    pure (outcomeOf [grate])

def execute (st : Setting σ) (b : Benchmark) : Running σ Outcome :=
  match b.kind with
  | .simple => simple st b
  | .composite => composite st b

/-- Runs one benchmark. A file that is none is skipped under its path. -/
def benchmark (st : Setting σ) (verbose : Bool) (p : Path) : Running σ Unit := do
  match Benchmark.ofPath st.config p with
  | .error e => record st verbose p.text (.skipped [.ofBuild (.definition e)])
  | .ok b =>
    print st (Style.paintFilled st.colours .heading (Text.padLeft labelWidth) "Benchmarking" ++
      ' ' :: b.name)
    let o ← execute st b
    record st verbose b.name o

def benchmarks (st : Setting σ) (verbose : Bool) : List Path → Running σ Unit
  | [] => pure ()
  | p :: ps => do
    benchmark st verbose p
    benchmarks st verbose ps

def all (st : Setting σ) (verbose : Bool) (prefixes : List Text) :
    Running σ (Except Glob.PatternError Unit) := do
  match Discovery.discover (← get).session.files st.config prefixes with
  | .error e => pure (.error e)
  | .ok paths =>
    print st (st.heading 5 "Found" ++ ' ' :: Text.ofNat paths.length ++ " benchmarks in " ++
      st.config.benchmarkDirectory.quoted)
    benchmarks st verbose paths
    pure (.ok ())

end Run

end TriBench
