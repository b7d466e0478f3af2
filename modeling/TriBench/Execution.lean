import TriBench.Failure
import TriBench.Session

/-!
# Execution

A native program is run by its path. Modules are booted together in the sandbox, which takes
privileges.
-/

namespace TriBench.Execution

variable {σ : Type}

def reportRunning (st : Setting σ) (p : Platform) (what : Text) : Act σ RunError Unit :=
  st.report 5 "Running" (what ++ " (" ++ p.name ++ [')'])

def bootCommand (st : Setting σ) (modules : List Path) : Command :=
  ((st.command st.config.tools.sandboxBoot).args (modules.map Path.text)).withPrivileges

def native (st : Setting σ) (program : Path) : Act σ RunError Text := do
  reportRunning st .linux program.text
  let output ← (st.invoke (st.command program.text)).orElseFail (.tool .linux)
  pure (Utf8.decode output.stdout)

def sandboxed (st : Setting σ) (modules : List Path) (p : Platform) : Act σ RunError Text := do
  if modules = [] then throw (.noModules p)
  reportRunning st p (Text.joinWith [' '] (modules.map Path.text))
  let output ← (st.invoke (bootCommand st modules)).orElseFail (.tool p)
  pure (Utf8.decode output.stdout)

end TriBench.Execution
