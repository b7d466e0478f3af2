import TriBench.Proofs.Build.Parts
import TriBench.Proofs.Build.Simple
import TriBench.Proofs.Run.Course

/-!
# The order of commands

Programs and modules of earlier runs lie where those of this run are put. They are never measured: in
each benchmark all commands of the build come first, and nothing is executed unless all of them have
succeeded.
-/

namespace TriBench

section
variable {σ : Type} (st : Setting σ)

structure Build.Placed (b : Benchmark) (files : FileSystem) (program module : Path) : Prop where
  native : program? st b = some program
  sandbox : module? st b = some module
  room : HasRoom files program

namespace Run

def simpleScript (b : Benchmark) (program module : Path) (native sandbox boot execution : Answer) :
    List Call :=
  ⟨Build.nativeCommand st b.path program, native⟩ ::
    if native.isOk then
      ⟨Build.sandboxCommand st b.path, sandbox⟩ ::
        if sandbox.isOk then
          [⟨Execution.bootCommand st [module], boot⟩, ⟨st.command program.text, execution⟩]
        else []
    else []

section
variable (b : Benchmark) (program module : Path) (sandbox boot execution : Answer)

@[simp] theorem simpleScript_native_error (e : ToolFailure) :
    simpleScript st b program module (.error e) sandbox boot execution =
      [⟨Build.nativeCommand st b.path program, .error e⟩] := rfl

@[simp] theorem simpleScript_sandbox_error (o : ToolOutput) (e : ToolFailure) :
    simpleScript st b program module (.ok o) (.error e) boot execution =
      [⟨Build.nativeCommand st b.path program, .ok o⟩, ⟨Build.sandboxCommand st b.path, .error e⟩] := rfl

@[simp] theorem simpleScript_built (o o' : ToolOutput) :
    simpleScript st b program module (.ok o) (.ok o') boot execution =
      [⟨Build.nativeCommand st b.path program, .ok o⟩, ⟨Build.sandboxCommand st b.path, .ok o'⟩] ++
        [⟨Execution.bootCommand st [module], boot⟩, ⟨st.command program.text, execution⟩] := rfl

end

variable {st}

/-! ## Attempts by their plan -/

section
variable {b : Benchmark} {program module : Path} {s : Session σ}

variable {p : Path} {ending : Except Fault Element} {new : List Call} {as : List Attempt}

end

/-! ## Composites -/

end Run

end

end TriBench
