import TriBench.FileSystem.Operations
import TriBench.Shell.Statement
import TriBench.Text.Number
import TriBench.Tool.Invocation

/-!
# The machine below the shell

Processes, the pipes between them, the files they share, and a clock in milliseconds for each of
them. One process is carried out after the other, those in the background at once when they are
started; what they write carries the time at which it was written. Nothing happens after a limit: a
process that would go on beyond it never ends.
-/

namespace TriBench.Shell

/-- What can be read: a text, or a text over and over. -/
inductive Stream
  | finite (content : Bytes)
  | endless (period : Bytes)
  deriving DecidableEq, Repr

/-- Something that is being read, and the time at which its end shows. -/
structure Source where
  rest : Stream
  readyAt : Nat

inductive Descriptor
  /-- Nothing can be read and everything can be written. -/
  | void
  | source (id : Nat)
  | pipe (id : Nat)
  /-- Writing appends. -/
  | file (loc : Location)
  deriving DecidableEq, Repr

/-- What a process has written into a pipe, and the background job that it belongs to. -/
structure Chunk where
  pipe : Nat
  time : Nat
  job : Option Nat
  content : Bytes

/-- A background job. Without an end it goes on beyond the limit. -/
structure Job where
  pid : Nat
  status : ExitStatus
  endsAt : Option Nat
  /-- The pipes that it holds open until it ends. -/
  holds : List Nat
  /-- The pipes that it has let go earlier, and when. -/
  released : List (Nat × Nat) := []

structure World where
  files : FileSystem
  /-- The latest first. -/
  chunks : List Chunk := []
  /-- Pipes into which a text is written over and over. -/
  endless : List (Nat × Bytes) := []
  sources : List Source := []
  pipes : Nat := 2
  jobs : List Job := []
  lastPid : Nat := 1000

structure Variable where
  value : Text
  exported : Bool := false

structure Process where
  pid : Nat := 1000
  /-- The process of the shell to which a subshell belongs. -/
  shellPid : Nat := 1000
  name : Text := "sh"
  line : Nat := 1
  arguments : List Text := []
  bindings : OrderedMap Text Variable := .empty
  directory : Location
  descriptors : List (Nat × Descriptor)
  functions : List (Text × Statement) := []
  /-- What is done on a signal, or at the end. -/
  traps : List (Text × Text) := []
  status : Nat := 0
  /-- Whether a failure ends the shell. -/
  strict : Bool := false
  /-- Whether a parameter without a value is a fault. -/
  strictParameters : Bool := false
  clock : Nat
  limit : Nat
  /-- The exit code of the last command whose output has been taken into the current one. -/
  substituted : Nat := 0
  /-- The pipes that the process has let go, and when. -/
  released : List (Nat × Nat) := []
  /-- The background job that the process belongs to. -/
  job : Option Nat := none
  /-- The background jobs that the process has started. -/
  jobs : List Nat := []
  lastJob : Option Nat := none

inductive Stop
  | exit (code : Nat)
  | killed (pid signal : Nat)
  /-- It would go on beyond the limit. -/
  | never
  | leaveLoop (levels : Nat)
  | nextRound (levels : Nat)
  | leaveFunction (code : Nat)

structure Machine where
  world : World
  process : Process

abbrev Act (α : Type) := ExceptT Stop (StateM Machine) α

/-- The exit code by which the shell knows a status. -/
def code : ExitStatus → Nat
  | .exited n => n
  | .signalled s => 128 + s

namespace World

/-- When a job closes a pipe; nothing if it holds it beyond the limit. -/
def releaseOf (j : Job) (pipe : Nat) : Option Nat :=
  if pipe ∈ j.holds then j.endsAt else some ((j.released.lookup pipe).getD 0)

/-- When all writers have closed a pipe that one of them closes at the given time. -/
def closesAt (w : World) (pipe time : Nat) : Option Nat :=
  w.jobs.foldl (fun latest j =>
    match latest, releaseOf j pipe with
    | some a, some b => some (max a b)
    | _, _ => none) (some time)

def isWritten (w : World) (c : Chunk) : Bool :=
  match c.job.bind fun id => w.jobs[id]? with
  | some { endsAt := some t, .. } => c.time ≤ t
  | _ => true

def written (w : World) (pipe : Nat) : Bytes :=
  let chunks := w.chunks.reverse.filter fun c => c.pipe = pipe && w.isWritten c
  (chunks.mergeSort fun a b => a.time ≤ b.time).flatMap Chunk.content

end World

namespace Act

def process : Act Process := return (← get).process

def world : Act World := return (← get).world

def modifyProcess (f : Process → Process) : Act Unit :=
  modify fun m => { m with process := f m.process }

def modifyWorld (f : World → World) : Act Unit := modify fun m => { m with world := f m.world }

/-! ## Time -/

def waitUntil (time : Nat) : Act Unit := do
  modifyProcess fun p => { p with clock := max p.clock time }
  let p ← process
  if p.limit < p.clock then throw .never

def pause (millis : Nat) : Act Unit := do waitUntil ((← process).clock + millis)

/-! ## Files -/

/-- The files as they are seen from the directory of the process. -/
def files : Act FileSystem := do
  let m ← get
  return { m.world.files with working := m.process.directory }

def setFiles (fs : FileSystem) : Act Unit :=
  modifyWorld fun w => { w with files := { fs with working := w.files.working } }

def changeFiles (change : FileSystem → Except IoError FileSystem) : Act (Option IoError) := do
  match change (← files) with
  | .ok fs =>
    setFiles fs
    return none
  | .error e => return some e

/-! ## Reading and writing -/

def descriptor? (d : Nat) : Act (Option Descriptor) := return (← process).descriptors.lookup d

def write (d : Nat) (content : Bytes) : Act Unit := do
  match ← descriptor? d with
  | some (.pipe pipe) =>
    let p ← process
    modifyWorld fun w => { w with chunks := ⟨pipe, p.clock, p.job, content⟩ :: w.chunks }
  | some (.file loc) =>
    modifyWorld fun w =>
      match w.files.node? loc with
      | some (.file old executable) =>
        { w with files := w.files.putNode loc (.file (old ++ content) executable) }
      | _ => w
  | _ => pure ()

def say (d : Nat) (t : Text) : Act Unit := write d (Text.toBytes t)

/-- Writes a stream. An endless one is only of use to a reader that stops, and then ends the
writer. -/
def pour (d : Nat) : Stream → Act Unit
  | .finite content => write d content
  | .endless period => do
    match ← descriptor? d with
    | some (.pipe pipe) =>
      if pipe < 2 then throw .never
      modifyWorld fun w => { w with endless := (pipe, period) :: w.endless }
      throw (.killed (← process).pid 13)
    | _ => throw .never

def newSource (s : Source) : Act Descriptor := do
  let id := (← world).sources.length
  modifyWorld fun w => { w with sources := w.sources ++ [s] }
  return .source id

def newPipe : Act Nat := do
  let id := (← world).pipes
  modifyWorld fun w => { w with pipes := id + 1 }
  return id

def peek (d : Nat) : Act Stream := do
  match ← descriptor? d with
  | some (.source id) =>
    match (← world).sources[id]? with
    | some s =>
      waitUntil s.readyAt
      return s.rest
    | none => return .finite []
  | _ => return .finite []

def setRest (d : Nat) (rest : Stream) : Act Unit := do
  match ← descriptor? d with
  | some (.source id) => modifyWorld fun w =>
    { w with sources := w.sources.modify id fun s => { s with rest } }
  | _ => pure ()

def readAll (d : Nat) : Act Stream := do
  let s ← peek d
  match s with
  | .finite _ => setRest d (.finite [])
  | .endless _ => pure ()
  return s

/-! ## Variables -/

def valueOf? (name : Text) : Act (Option Text) := do
  return ((← process).bindings.get? name).map Variable.value

def assign (name value : Text) : Act Unit :=
  modifyProcess fun p => { p with
    bindings := p.bindings.alter name fun v => { value, exported := (v.map (·.exported)).getD false } }

def exportVariable (name : Text) : Act Unit :=
  modifyProcess fun p => { p with
    bindings := p.bindings.alter name fun v => { value := (v.map (·.value)).getD [], exported := true } }

/-! ## Children -/

/-- How a child has ended, and what it was at last; without a status it never ends. -/
structure Child where
  status : Option ExitStatus
  last : Process

/-- The result of an action, without letting it end more than itself. -/
def contained {α : Type} (a : Act α) : Act (Except Stop α) := ExceptT.lift a.run

/-- Carries out a child, which starts as a copy of the process. What kills the shell kills its
parent too. -/
def child (change : Process → Process) (body : Act Nat) : Act Child := do
  let parent ← process
  modifyProcess change
  let result ← contained body
  let last ← process
  modifyProcess fun _ => parent
  let ended (status : Option ExitStatus) : Act Child := return ⟨status, last⟩
  match result with
  | .ok n => ended (some (.exited n))
  | .error (.exit n) => ended (some (.exited n))
  | .error (.leaveFunction n) => ended (some (.exited n))
  | .error (.leaveLoop _) => ended (some (.exited 0))
  | .error (.nextRound _) => ended (some (.exited 0))
  | .error .never => ended none
  | .error (.killed pid signal) =>
    if pid = last.pid then ended (some (.signalled signal)) else throw (.killed pid signal)

def newPid : Act Nat := do
  let pid := (← world).lastPid + 1
  modifyWorld fun w => { w with lastPid := pid }
  return pid

def signalText? (signal : Nat) : Option Text :=
  if signal = 1 then some "Hangup"
  else if signal = 3 then some "Quit"
  else if signal = 4 then some "Illegal instruction"
  else if signal = 6 then some "Aborted"
  else if signal = 8 then some "Floating point exception"
  else if signal = 9 then some "Killed"
  else if signal = 10 then some "User defined signal 1"
  else if signal = 11 then some "Segmentation fault"
  else if signal = 12 then some "User defined signal 2"
  else if signal = 14 then some "Alarm clock"
  else if signal = 15 then some "Terminated"
  else none

def await (c : Child) : Act ExitStatus := do
  match c.status with
  | none => throw .never
  | some status =>
    waitUntil c.last.clock
    return status

def tellSignal (signal : Nat) : Act Unit := do
  match signalText? signal with
  | some t => say 2 (t ++ ['\n'])
  | none => pure ()

/-- Waits for a child in the foreground and tells if a signal has killed it. -/
def awaitTelling (c : Child) : Act Nat := do
  let status ← await c
  match status with
  | .signalled signal => tellSignal signal
  | .exited _ => pure ()
  return code status

def held (p : Process) : List Nat :=
  p.descriptors.filterMap fun (_, d) => match d with
    | .pipe id => some id
    | _ => none

/-- Everything that a child wrote into a pipe, when all who hold it have closed it. -/
def drain (pipe : Nat) (c : Child) : Act Source := do
  let w ← world
  match w.endless.lookup pipe with
  | some period => return ⟨.endless period, c.last.clock⟩
  | none =>
    match c.status, w.closesAt pipe c.last.clock with
    | some _, some time => return ⟨.finite (w.written pipe), time⟩
    | _, _ => throw .never

def setDescriptor (d : Nat) (target : Option Descriptor) (p : Process) : Process :=
  let others := p.descriptors.filter fun e => e.1 ≠ d
  { p with descriptors := others ++ (target.map fun x => (d, x)).toList }

def releasing (before : Process) (p : Process) : Process :=
  let lost := (held before).filter (· ∉ held p)
  { p with released := p.released ++ lost.map fun pipe => (pipe, p.clock) }

def background (body : Act Nat) : Act Unit := do
  let pid ← newPid
  let id := (← world).jobs.length
  let p ← process
  modifyWorld fun w => { w with jobs := w.jobs ++ [⟨pid, .exited 0, none, held p, []⟩] }
  let c ← child (fun p => setDescriptor 0 (some .void) { p with job := some id, pid, released := [] }) body
  let ended : Job :=
    { pid, status := c.status.getD (.exited 0), endsAt := c.status.map fun _ => c.last.clock
      holds := held c.last, released := c.last.released }
  modifyWorld fun w => { w with jobs := w.jobs.set id ended }
  modifyProcess fun p => { p with lastJob := some pid, jobs := p.jobs ++ [id] }

def killJob (id signal : Nat) : Act Unit := do
  let now := (← process).clock
  modifyWorld fun w => { w with
    jobs := w.jobs.modify id fun j =>
      if (j.endsAt.map (decide <| now ≤ ·)).getD true then
        { j with endsAt := some now, status := .signalled signal
                 released := j.released.map fun (pipe, t) => (pipe, min t now) }
      else j }

end Act

end TriBench.Shell
