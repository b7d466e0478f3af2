import TriBench.Session

/-!
# Invocations

How a command is given to the operating system. An invocation is a machine that awaits one kind of
observation in each phase and acts on it: it looks the program up, starts it as the leader of a
process group, polls it until it has exited or its time is over, and collects what it has written.
A program that is late, or can no longer be polled, is ended with its whole group: it is asked to
end, is given some time, and is killed. Whoever still holds an output open at the deadline makes the
program late.
-/

namespace TriBench

inductive ExitStatus
  | exited (code : Nat)
  | signalled (signal : Nat)
  deriving DecidableEq, Repr

def ExitStatus.code? : ExitStatus → Option Int
  | exited code => some code
  | signalled _ => none

namespace Invocation

inductive Signal
  | terminate
  | kill
  deriving DecidableEq, Repr

inductive Observation
  | lookup (found : Bool)
  | start (result : Except IoError Unit)
  /-- Whether the clock can tell the deadline. -/
  | deadline (fits : Bool)
  | poll (result : Except IoError (Option ExitStatus))
  /-- Whether the time that is waited for is over. -/
  | clock (elapsed : Bool)
  /-- What an output held, if it was closed by the deadline. -/
  | output (content : Option Bytes)
  /-- A wait without a limit has come to its end. -/
  | ended

inductive Action
  | start (program : Text) (arguments : List Text) (directory : Option Path)
  /-- A signal to the process group. -/
  | signal (s : Signal)
  /-- The program is known to have ended and leaves nothing behind. -/
  | reap
  deriving DecidableEq

inductive Phase
  | lookingUp
  | starting
  | timing
  | polling
  /-- Not exited at the last poll. -/
  | pausing
  | collectingOutput (status : ExitStatus)
  | collectingErrors (status : ExitStatus) (stdout : Option Bytes)
  /-- Asked to end, with the failure to be reported. -/
  | ending (cause : ToolFailure)
  | pollingEnd (cause : ToolFailure)
  | killed (cause : ToolFailure)
  | finished (answer : Answer)
  | aborted (fault : Fault)

structure State where
  phase : Phase := .lookingUp
  actions : List Action := []

namespace State

def enter (s : State) (phase : Phase) : State := { s with phase }

def act (s : State) (a : Action) : State := { s with actions := s.actions ++ [a] }

def finish (s : State) (answer : Answer) : State := s.enter (.finished answer)

def stop (s : State) (cause : ToolFailure) : State :=
  (s.act (.signal .terminate)).enter (.ending cause)

def kill (s : State) (cause : ToolFailure) : State :=
  (s.act (.signal .kill)).enter (.killed cause)

end State

/-- The program that is started for a command, and its arguments: a privileged command is handed to
the elevation program. -/
def target (elevation : Text) (c : Command) : Text × List Text :=
  if c.privileged then (elevation, c.program :: c.arguments) else (c.program, c.arguments)

def answer (program : Text) (status : ExitStatus) (output : ToolOutput) : Answer :=
  if status = .exited 0 then .ok output else .error (.exit program status.code? output)

/-- One observation. What the phase does not await changes nothing. -/
def step (elevation : Text) (c : Command) (s : State) (o : Observation) : State :=
  let (program, arguments) := target elevation c
  match s.phase, o with
  | .lookingUp, .lookup false => s.finish (.error (.notFound program))
  | .lookingUp, .lookup true => (s.act (.start program arguments c.directory)).enter .starting
  | .starting, .start (.error e) => s.finish (.error (.spawning program e))
  | .starting, .start (.ok ()) => s.enter .timing
  | .timing, .deadline false => s.enter (.aborted .deadlineOverflow)
  | .timing, .deadline true => s.enter .polling
  | .polling, .poll (.error e) => s.stop (.waiting program e)
  | .polling, .poll (.ok none) => s.enter .pausing
  | .polling, .poll (.ok (some status)) => (s.act .reap).enter (.collectingOutput status)
  | .pausing, .clock false => s.enter .polling
  | .pausing, .clock true => s.stop (.timeout program c.timeout)
  | .collectingOutput status, .output content => s.enter (.collectingErrors status content)
  | .collectingErrors status (some stdout), .output (some stderr) =>
    s.finish (answer program status { stdout, stderr })
  | .collectingErrors .., .output _ => s.stop (.timeout program c.timeout)
  | .ending cause, .clock false => s.enter (.pollingEnd cause)
  | .ending cause, .clock true => s.kill cause
  | .pollingEnd cause, .poll (.ok none) => s.enter (.ending cause)
  | .pollingEnd cause, .poll _ => s.kill cause
  | .killed cause, .ended => (s.act .reap).finish (.error cause)
  | _, _ => s

def run (elevation : Text) (c : Command) (os : List Observation) : State :=
  os.foldl (step elevation c) {}

/-- How long the machine waits between two polls, in milliseconds. -/
def pollInterval : Nat := 10

def lastSecond : Nat := Nat.pow 2 63 - 1

/-- Whether the clock can tell the end of a time limit that starts now. -/
def deadlineFits (nowMillis timeout : Nat) : Bool := (nowMillis + timeout) / 1000 ≤ lastSecond

end Invocation

end TriBench
