import TriBench.Build
import TriBench.Execution
import TriBench.Proofs.Session.Answers

/-!
# The commands of builds and executions

The commands that fetch components and build artifacts are told apart from those that execute what
was built by their form. The log of each step accounts for its ending, and it holds commands of one
side only; an execution gives exactly one.
-/

namespace TriBench

/-- A boot takes privileges and a native program is given no arguments; a command of a build is
neither of them. -/
def Command.Executes (c : Command) : Prop := c.privileged = true ∨ c.arguments = []

section
variable {σ : Type} (st : Setting σ)

def Act.Prepares {ε α : Type} (a : Act σ ε α) (tool? : ε → Option ToolFailure) : Prop :=
  a.Accounted st tool? fun c => ¬ c.Executes

theorem Act.Prepares.invoke {δ : Type} {c : Command} {wrap : ToolFailure → δ}
    {tool? : δ → Option ToolFailure}
    (hc : ¬ c.Executes) (hw : ∀ f, tool? (wrap f) = some f) :
    ((st.invoke c).orElseFail wrap).Prepares st tool? :=
  (Accounted.invoke hc).orElseFail hw

/-! ## Components -/

namespace Component

theorem clone_prepares (component : Text) : (clone st component).Prepares st FetchError.tool? := by
  have hclone : ((st.invoke (cloneCommand st)).orElseFail (FetchError.cloning component)).Prepares st
      FetchError.tool? :=
    .invoke st (by simp [Command.Executes, cloneCommand, Command.args, Setting.command]) fun _ => rfl
  unfold clone
  exact (Act.Accounted.makeParent fun _ _ => rfl).bind fun _ => (Act.Accounted.report _ _ _).bind fun _ =>
    hclone.bind fun _ => .pure _

theorem ensureWorkingCopy_prepares (component : Text) :
    (ensureWorkingCopy st component).Prepares st FetchError.tool? := by
  have hinit : (do
      if !(← get).selectionReady then
        let _ ← (st.invoke (initCommand st)).orElseFail (FetchError.selecting component)
        modify fun s => { s with selectionReady := true }
      : Act σ FetchError Unit).Prepares st FetchError.tool? := by
    refine Act.Accounted.get.bind fun s => ?_
    split
    · refine Act.Accounted.bind (Act.Prepares.invoke st ?_ fun _ => rfl) fun _ => ?_
      · simp [Command.Executes, initCommand, inWorkingCopy, Command.args, Setting.command]
      · exact Act.Accounted.of_run fun s => ⟨_, _, rfl, rfl⟩
    · exact .pure _
  unfold ensureWorkingCopy
  refine Act.Accounted.get.bind fun s => ?_
  dsimp only
  split
  · exact (clone_prepares st component).bind fun _ => hinit
  · exact hinit

theorem select_prepares (component : Text) : (select st component).Prepares st FetchError.tool? := by
  unfold select
  refine Act.Accounted.bind (Act.Prepares.invoke st ?_ fun _ => rfl) fun output => ?_
  · simp [Command.Executes, listCommand, inWorkingCopy, Command.args, Setting.command]
  · dsimp only
    split
    · refine Act.Accounted.bind (Act.Prepares.invoke st ?_ fun _ => rfl) fun _ => .pure _
      simp [Command.Executes, setCommand, inWorkingCopy, Command.args, Setting.command]
    · exact .pure _

theorem update_prepares (component : Text) : (update st component).Prepares st FetchError.tool? := by
  unfold update
  refine Act.Accounted.bind (Act.Prepares.invoke st ?_ fun _ => rfl) fun _ =>
    Act.Accounted.bind (Act.Prepares.invoke st ?_ fun _ => rfl) fun _ => .pure _
  · simp [Command.Executes, checkoutCommand, inWorkingCopy, Command.args, Setting.command]
  · simp [Command.Executes, pullCommand, inWorkingCopy, Command.args, Setting.command]

theorem fetch_prepares (component : Text) : (fetch st component).Prepares st FetchError.tool? := by
  unfold fetch
  refine (ensureWorkingCopy_prepares st component).bind fun _ => (select_prepares st component).bind fun _ =>
    (update_prepares st component).bind fun _ => Act.Accounted.get.bind fun s => ?_
  dsimp only
  split
  · exact .pure _
  · split
    · exact .pure _
    · exact .throw rfl

end Component

/-! ## Artifacts -/

namespace Build

theorem relative_prepares (p : Path) : (relative st p).Prepares st BuildError.tool? := by
  unfold relative
  split
  · exact .pure _
  · exact .throw rfl

theorem sandboxSource_prepares (source : Path) :
    (sandboxSource st source).Prepares st BuildError.tool? := by
  unfold sandboxSource
  refine (relative_prepares st source).bind fun rel =>
    (Act.Accounted.withExtension fun _ => by simp).bind fun module =>
    (Act.Accounted.report _ _ _).bind fun _ =>
      Act.Accounted.bind (Act.Prepares.invoke st ?_ fun _ => rfl) fun _ =>
    .pure _
  simp [Command.Executes, sandboxCommand, Command.args, Setting.command]

theorem sandboxSource_gives {source rel : Path}
    (h : source.stripPrefix? st.config.benchmarkDirectory = some rel) :
    (sandboxSource st source).Logs (Act.Gives st (sandboxCommand st source) fun answer =>
      (answer.mapError (BuildError.toolchain source)).map fun _ =>
        ⟨.sandbox, rel.replaceExtension st.config.moduleExtension⟩) := by
  unfold sandboxSource relative
  simp only [h, pure_bind]
  by_cases hs : '/' ∈ st.config.moduleExtension
  · rw [Act.withExtension_of_slash hs]
    exact fun s => ⟨[], by simp [Act.run_bind], .inr ⟨_, .inr ⟨_, by simp, hs, rfl⟩, rfl, rfl⟩⟩
  · rw [Act.withExtension_of_no_slash hs, pure_bind]
    exact Act.gives_report_invoke _ _ _ _ _ _ _

theorem sandbox_prepares (b : Benchmark) : (sandbox st b).Prepares st BuildError.tool? := by
  unfold sandbox
  dsimp only
  split
  · exact Act.Accounted.bind (.throw rfl) fun _ => sandboxSource_prepares st b.path
  · exact sandboxSource_prepares st b.path

theorem native_prepares (b : Benchmark) : (native st b).Prepares st BuildError.tool? := by
  have hmain : (do
      let program ← Act.withExtension (← relative st b.path) []
      let output := st.config.sandboxRoot.join program
      Setting.makeParent output .directory
      reportCompiling st .native b.path
      let _ ← (st.invoke (nativeCommand st b.path output)).orElseFail (.toolchain b.path)
      pure ⟨.native, output⟩ : Act σ BuildError Artifact).Prepares st BuildError.tool? := by
    refine (relative_prepares st b.path).bind fun rel =>
      (Act.Accounted.withExtension (by simp)).bind fun program =>
      (Act.Accounted.makeParent fun _ _ => rfl).bind fun _ => (Act.Accounted.report _ _ _).bind fun _ =>
      Act.Accounted.bind (Act.Prepares.invoke st ?_ fun _ => rfl) fun _ => .pure _
    simp [Command.Executes, nativeCommand, Command.args, Setting.command]
  unfold native
  dsimp only
  split
  · exact Act.Accounted.bind (.throw rfl) fun _ => hmain
  · exact hmain

theorem both_prepares (b : Benchmark) : (both st b).Prepares st BuildError.tool? :=
  (native_prepares st b).bind fun _ => (sandbox_prepares st b).bind fun _ => .pure _

theorem shim_prepares (directory : Path) : (shim st directory).Prepares st BuildError.tool? := by
  unfold shim
  split
  · exact .throw rfl
  · refine (Act.Accounted.report _ _ _).bind fun _ =>
      Act.Accounted.bind (Act.Prepares.invoke st ?_ fun _ => rfl) fun _ =>
      (Act.Accounted.withExtension fun _ => by simp).bind fun module => .pure _
    simp [Command.Executes, shimCommand, Command.args, Command.inDirectory, Setting.command]

theorem part_prepares (p : Part) : (part st p).Prepares st BuildError.tool? := by
  cases p with
  | source name =>
    exact (Act.Accounted.withExtension fun _ => by simp).bind fun source => sandboxSource_prepares st source
  | shim name =>
    exact Act.Accounted.bind (Act.Accounted.orElseFail (Component.fetch_prepares st name) fun _ => rfl)
      fun directory => shim_prepares st directory

theorem parts_prepares (ps : List Part) : (parts st ps).Prepares st BuildError.tool? := by
  induction ps with
  | nil => exact .pure _
  | cons p ps ih => exact (part_prepares st p).bind fun _ => ih.bind fun _ => .pure _

theorem length_of_parts {ps : List Part} {artifacts : List Artifact} {s s' : Session σ}
    (h : (parts st ps).run s = (.ok (.ok artifacts), s')) : artifacts.length = ps.length := by
  induction ps generalizing artifacts s with
  | nil => cases h; rfl
  | cons p ps ih =>
    obtain ⟨artifact, s₁, -, h⟩ := Act.run_bind_value h
    obtain ⟨rest, s₂, hrest, h⟩ := Act.run_bind_value h
    cases h
    rw [List.length_cons, List.length_cons, ih hrest]

end Build

/-! ## Executions -/

namespace Execution

def outputOf (p : Platform) (answer : Answer) : Except RunError Text :=
  (answer.mapError (.tool p)).map fun output => Utf8.decode output.stdout

@[simp] theorem outputOf_ok (p : Platform) (o : ToolOutput) :
    outputOf p (.ok o) = .ok (Utf8.decode o.stdout) := rfl

theorem native_gives (program : Path) :
    (native st program).Logs (Act.Gives st (st.command program.text) (outputOf .linux)) :=
  Act.gives_report_invoke _ _ _ _ _ _ _

theorem sandboxed_gives {modules : List Path} (h : modules ≠ []) (p : Platform) :
    (sandboxed st modules p).Logs (Act.Gives st (bootCommand st modules) (outputOf p)) := by
  unfold sandboxed
  dsimp only
  rw [if_neg h]
  exact Act.gives_report_invoke _ _ _ _ _ _ _

theorem boot_executes (modules : List Path) : (bootCommand st modules).Executes := .inl rfl

theorem native_executes (program : Path) : (st.command program.text).Executes := .inr rfl

end Execution

end

end TriBench
