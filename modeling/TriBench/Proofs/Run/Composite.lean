import TriBench.Proofs.Build.Composite
import TriBench.Proofs.Run.Steps

/-!
# The run of a composite

The parts are built in order, and what has been made of them is booted with one command. Main statement:
`composite_boots_parts`.
-/

namespace TriBench.Run

section
variable {σ : Type} (st : Setting σ)

/-- The modules are booted together for the last platform, in the order of their parts. There is no
boot without modules, and none if a fault comes before it. -/
inductive Boots (artifacts : List Artifact) : Except Fault Outcome → List Call → Prop
  | unasked (h : artifacts = []) :
    Boots artifacts (.ok (outcomeOf [(.grate, .error (.execution (.noModules .grate)))])) []
  | fault (h : artifacts ≠ []) {f : Fault} (hf : st.CanMeet f) : Boots artifacts (.error f) []
  | booted (h : artifacts ≠ []) {c : Command} (hprogram : c.program = st.config.tools.sandboxBoot)
    (harguments : c.arguments = artifacts.map fun a => a.path.text)
    (hprivileged : c.privileged = true) (answer : Answer) :
    Boots artifacts (.ok (Attempt.outcome [⟨.grate, c, answer⟩])) [⟨c, answer⟩]

theorem boots_measure (artifacts : List Artifact) (g : Progress σ) :
    let run := (do
      let grate ← measure .grate (Execution.sandboxed st (artifacts.map Artifact.path) .grate)
      pure (outcomeOf [grate]) : Running σ Outcome).run.run g
    ∃ boots, run.2.session.calls = g.session.calls ++ boots ∧ Boots st artifacts run.1 boots := by
  dsimp only
  by_cases h : artifacts = []
  · subst h
    exact ⟨[], by rw [List.append_nil]; rfl, .unasked rfl⟩
  · have hpaths : artifacts.map Artifact.path ≠ [] := mt List.map_eq_nil_iff.1 h
    rcases measure_cases (Execution.sandboxed_gives st hpaths .grate) g with
      ⟨⟨p, c, answer⟩, ha, g', hr, hafter⟩ | ⟨f, g', hr, hf, hafter⟩
    · cases ha
      rw [run_bind, hr]
      refine ⟨_, hafter.calls, ?_⟩
      dsimp only
      rw [run_pure, ← List.map_singleton, Attempt.outcomeOf_verdicts]
      exact .booted h rfl (by simp [Command.args, Setting.command]) rfl answer
    · rw [run_bind, hr]
      exact ⟨[], hafter.calls, .fault h hf⟩

/-- **A composite boots its parts.** The parts are built in order up to the first that fails, and
then there is no boot. If all have been built there is one artifact for each, and the boot is given
their modules in the order of the parts. -/
theorem composite_boots_parts (st : Setting σ) (b : Benchmark) (g : Progress σ) :
    let build := (Build.parts st b.parts).run g.session
    let run := (composite st b).run.run g
    ∃ builds boots : List Call, build.2.calls = g.session.calls ++ builds ∧
      run.2.session.calls = g.session.calls ++ builds ++ boots ∧
      Build.Order st g.session b.parts build.1 builds ∧ (∀ c ∈ builds, ¬ c.command.Executes) ∧
      match build.1 with
      | .error f => run.1 = .error f ∧ boots = []
      | .ok (.error e) => run.1 = .ok (.skipped [.ofBuild e]) ∧ boots = []
      | .ok (.ok artifacts) => artifacts.map Artifact.target = b.parts.map Part.target ∧
          (∀ c ∈ builds, c.Succeeded) ∧ Boots st artifacts run.1 boots := by
  obtain ⟨builds, hbuilds, horder, haccounts, hprepares⟩ :=
    (Build.parts_logs st b.parts g.session).and (Build.parts_prepares st b.parts g.session)
  unfold composite
  dsimp only
  rw [run_bind, run_attempt]
  rcases hb : (Build.parts st b.parts).run g.session with ⟨f | e | artifacts, s⟩ <;>
    rw [hb] at hbuilds horder haccounts <;>
    dsimp only at hbuilds horder haccounts ⊢
  · exact ⟨builds, [], hbuilds, by simpa using hbuilds, horder, hprepares, rfl, rfl⟩
  · exact ⟨builds, [], hbuilds, by rw [List.append_nil]; exact hbuilds, horder, hprepares, rfl, rfl⟩
  · obtain ⟨boots, hboots, h⟩ := boots_measure st artifacts { g with session := s }
    refine ⟨builds, boots, hbuilds, ?_, horder, hprepares, ?_, haccounts.succeeded, h⟩
    · rw [← hbuilds]
      exact hboots
    · exact horder.targets

end

end TriBench.Run
