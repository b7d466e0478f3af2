import TriBench.Config.Basic
import TriBench.FileSystem.Operations
import TriBench.Text.Styled
import TriBench.Tool.Command
import TriBench.Tool.Failure

/-!
# Sessions

What the parts of a run share: the configuration, the tools that answer commands, the files, and a
log of every command with its answer. A step may fail, which its caller handles, or meet a fault,
which ends the whole run.
-/

namespace TriBench

/-- What no caller handles. -/
inductive Fault
  | slashInExtension (extension : Text)
  | deadlineOverflow
  deriving DecidableEq

abbrev Answer := Except ToolFailure ToolOutput

/-- Whoever answers commands, with a state of its own. It sees the files and may change them. -/
structure Toolbox (σ : Type) where
  invoke : Command → FileSystem → σ → Except Fault Answer × FileSystem × σ

structure Setting (σ : Type) where
  config : Config
  toolbox : Toolbox σ
  quiet : Bool
  colours : Bool

structure Call where
  command : Command
  answer : Answer

structure Session (σ : Type) where
  files : FileSystem
  tools : σ
  /-- The commands in the order in which they were given. -/
  calls : List Call := []
  printed : Text := []
  /-- The sparse selection of the working copy has been set up in this session. -/
  selectionReady : Bool := false

/-- A step that fails with `ε` or yields `α`. -/
abbrev Act (σ ε α : Type) := ExceptT ε (ExceptT Fault (StateM (Session σ))) α

namespace Act

variable {σ ε δ α : Type}

def run (a : Act σ ε α) (s : Session σ) : Except Fault (Except ε α) × Session σ :=
  (ExceptT.run (ExceptT.run a)).run s

def fault (f : Fault) : Act σ ε α := ExceptT.lift (throw f)

def orElseFail (a : Act σ ε α) (wrap : ε → δ) : Act σ δ α := ExceptT.adapt wrap a

/-- The path with another extension; a slash in it is a fault. -/
def withExtension (p : Path) (extension : Text) : Act σ ε Path :=
  match p.withExtension? extension with
  | some q => pure q
  | none => fault (.slashInExtension extension)

end Act

namespace Setting

variable {σ ε : Type}

def command (st : Setting σ) (program : Text) : Command :=
  { program, timeout := st.config.timeoutMillis }

def invoke (st : Setting σ) (c : Command) : Act σ ToolFailure ToolOutput := do
  let s ← get
  match st.toolbox.invoke c s.files s.tools with
  | (.error f, files, tools) =>
    set { s with files, tools }
    Act.fault f
  | (.ok answer, files, tools) =>
    set { s with files, tools, calls := s.calls ++ [Call.mk c answer] }
    match answer with
    | .error e => throw e
    | .ok output => pure output

def heading (st : Setting σ) (blanks : Nat) (word : Text) : Text :=
  List.replicate blanks ' ' ++ Style.paint st.colours .heading word

def report (st : Setting σ) (blanks : Nat) (word rest : Text) : Act σ ε Unit :=
  if st.quiet then pure ()
  else modify fun s =>
    { s with printed := s.printed ++ st.heading blanks word ++ ' ' :: rest ++ ['\n'] }

def makeDirectories (p : Path) : Act σ IoError Unit := do
  let s ← get
  let (r, files) := s.files.makeDirectories p
  set { s with files }
  match r with
  | .error e => throw e
  | .ok () => pure ()

def makeParent (p : Path) (wrap : Path → IoError → ε) : Act σ ε Unit :=
  match p.parent? with
  | none => pure ()
  | some parent => (makeDirectories parent).orElseFail (wrap parent)

end Setting

end TriBench
