import TriBench.Failure
import TriBench.Session
import TriBench.Text.Lines

/-!
# Components

The sources of shim components come from a repository of which only the needed directories are
checked out. The working copy is cloned when it is missing, its sparse selection is set up once in a
session and then only grows, and before each use the working copy is brought up to date. A directory
of the same name beside the benchmarks stands in for a component that the repository lacks.
-/

namespace TriBench.Component

variable {σ : Type}

def inWorkingCopy (st : Setting σ) : Command :=
  (st.command st.config.tools.versionControl).args
    ["-C", st.config.repository.workingCopy.text]

def cloneCommand (st : Setting σ) : Command :=
  (st.command st.config.tools.versionControl).args
    ["clone", "--filter=blob:none", "--no-checkout", st.config.repository.url,
     st.config.repository.workingCopy.text]

def initCommand (st : Setting σ) : Command :=
  (inWorkingCopy st).args ["sparse-checkout", "init", "--cone"]

def listCommand (st : Setting σ) : Command :=
  (inWorkingCopy st).args ["sparse-checkout", "list"]

def setCommand (st : Setting σ) (selection : List Text) : Command :=
  (inWorkingCopy st).args ("sparse-checkout" :: "set" :: selection)

def checkoutCommand (st : Setting σ) : Command :=
  (inWorkingCopy st).args ["checkout", st.config.repository.branch]

def pullCommand (st : Setting σ) : Command :=
  (inWorkingCopy st).args ["pull", "--ff-only", "origin", st.config.repository.branch]

def clone (st : Setting σ) (component : Text) : Act σ FetchError Unit := do
  let copy := st.config.repository.workingCopy
  Setting.makeParent copy .directory
  st.report 4 "Fetching" (st.config.repository.url ++ " => " ++ copy.quoted)
  let _ ← (st.invoke (cloneCommand st)).orElseFail (.cloning component)

/-- Makes sure that there is a working copy whose sparse selection is set up. -/
def ensureWorkingCopy (st : Setting σ) (component : Text) : Act σ FetchError Unit := do
  if !(← get).files.has st.config.repository.workingCopy then clone st component
  if !(← get).selectionReady then
    let _ ← (st.invoke (initCommand st)).orElseFail (.selecting component)
    modify fun s => { s with selectionReady := true }

def listed (output : ToolOutput) : List Text :=
  ((Text.lines (Utf8.decode output.stdout)).map Text.trim).filter (· ≠ [])

/-- Adds the component to the sparse selection unless it is in it. -/
def select (st : Setting σ) (component : Text) : Act σ FetchError Unit := do
  let output ← (st.invoke (listCommand st)).orElseFail (.selecting component)
  let selection := listed output
  if component ∉ selection then
    let _ ← (st.invoke (setCommand st (selection ++ [component]))).orElseFail (.selecting component)

def update (st : Setting σ) (component : Text) : Act σ FetchError Unit := do
  let _ ← (st.invoke (checkoutCommand st)).orElseFail (.updating component)
  let _ ← (st.invoke (pullCommand st)).orElseFail (.updating component)

def fetch (st : Setting σ) (component : Text) : Act σ FetchError Path := do
  ensureWorkingCopy st component
  select st component
  update st component
  let files := (← get).files
  let external := st.config.repository.workingCopy.join ⟨component⟩
  let beside := st.config.benchmarkDirectory.join ⟨component⟩
  if files.isDirectory external then pure external
  else if files.isDirectory beside then pure beside
  else throw (.notFound component [external, beside])

end TriBench.Component
