import TriBench.Shell.Evaluation

/-!
# Hosts

Commands on a host that consists of its files alone. A program is carried out at once, up to the
moment at which it would be late, and what an invocation then observes follows from when it has
ended and when its outputs have been closed.
-/

namespace TriBench.Shell.Host

structure Trace where
  /-- How it has ended, and when; nothing if it goes on beyond the limit. -/
  exit : Option (ExitStatus × Nat)
  /-- What it has written to each output, and when that was closed by all who held it. -/
  stdout : Bytes × Option Nat
  stderr : Bytes × Option Nat
  files : FileSystem

def initialVariables : OrderedMap Text Variable :=
  let path : Text := "/usr/local/sbin:/usr/local/bin:/usr/sbin:/usr/bin:/sbin:/bin"
  (OrderedMap.empty.insert "HOME".toList ⟨"/root", true⟩).insert "PATH".toList ⟨path, true⟩

/-- The first process, with nothing to read and its outputs in the first two pipes. -/
def firstProcess (directory : Location) (limit : Nat) : Process where
  bindings := initialVariables
  directory := directory
  descriptors := [(0, .void), (1, .pipe 0), (2, .pipe 1)]
  clock := 0
  limit := limit

def directoryOf (fs : FileSystem) : Option Path → Except IoError Location
  | none => .ok fs.working
  | some p =>
    match fs.locate true p with
    | .ok (.found loc .directory) => .ok loc
    | .ok (.found ..) => .error .notDirectory
    | .ok (.vacant ..) => .error .notFound
    | .error e => .error e

def start (fs : FileSystem) (directory : Option Path) (program : Text) (arguments : List Text)
    (limit : Nat) : Except IoError Trace := do
  let texts := program :: arguments ++ (directory.map Path.text).toList
  if texts.any fun t => '\x00' ∈ t then throw (.other "nul byte found in provided data")
  let loc ← directoryOf fs directory
  let image ← Image.ofName { fs with working := loc } program
  let machine : Machine := { world := { files := fs }, process := firstProcess loc limit }
  let (result, m) := ((Act.child id (runProgram image program arguments)).run).run machine
  let exit : Option (ExitStatus × Nat) := match result with
    | .ok c => c.status.map fun s => (s, c.last.clock)
    | .error (.killed _ signal) => some (.signalled signal, m.process.clock)
    | .error _ => none
  let closing (pipe : Nat) : Option Nat := exit.bind fun (_, t) => m.world.closesAt pipe t
  return {
    exit
    stdout := (m.world.written 0, closing 0)
    stderr := (m.world.written 1, closing 1)
    files := m.world.files }

def pollAfter (t : Nat) : Nat :=
  (t + Invocation.pollInterval - 1) / Invocation.pollInterval * Invocation.pollInterval

def idle (time : Nat) : List Invocation.Observation :=
  (List.replicate (time / Invocation.pollInterval) [.poll (.ok none), .clock false]).flatten

def observed (timeout : Nat) (t : Trace) : List Invocation.Observation :=
  let late := pollAfter timeout
  let stopped : List Invocation.Observation := [.clock true, .ended]
  let output (o : Bytes × Option Nat) (deadline : Nat) : Invocation.Observation :=
    .output (if (o.2.map (decide <| · ≤ deadline)).getD false then some o.1 else none)
  match t.exit.filter fun e => pollAfter e.2 ≤ late with
  | some (status, time) =>
    let deadline := max timeout (pollAfter time)
    idle (pollAfter time) ++
      [.poll (.ok (some status)), output t.stdout deadline, output t.stderr deadline] ++ stopped
  | none => idle late ++ [.poll (.ok none), .clock true] ++ stopped

/-- The time that the clock shows when a command is given, in milliseconds. -/
def startMillis : Nat := 1000

/-- What an invocation of a command observes on the host, and the files afterwards. -/
def observations (fs : FileSystem) (elevation : Text) (c : Command) :
    List Invocation.Observation × FileSystem :=
  let (program, arguments) := Invocation.target elevation c
  if Image.exists? fs program then
    match start fs c.directory program arguments (pollAfter c.timeout) with
    | .error e => ([.lookup true, .start (.error e)], fs)
    | .ok t =>
      let fits := Invocation.deadlineFits startMillis c.timeout
      ([.lookup true, .start (.ok ()), .deadline fits] ++ if fits then observed c.timeout t else [],
        t.files)
  else ([.lookup false], fs)

/-- What comes of a command. An invocation that is never over is late. -/
def invoke (elevation : Text) (c : Command) (fs : FileSystem) : Except Fault Answer × FileSystem :=
  let (os, fs) := observations fs elevation c
  match (Invocation.run elevation c os).phase with
  | .finished answer => (.ok answer, fs)
  | .aborted fault => (.error fault, fs)
  | _ => (.ok (.error (.timeout (Invocation.target elevation c).1 c.timeout)), fs)

def toolbox (elevation : Text) : Toolbox Unit where
  invoke c fs s :=
    let (result, fs) := invoke elevation c fs
    (result, fs, s)

end TriBench.Shell.Host
