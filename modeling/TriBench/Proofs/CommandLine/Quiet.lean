import TriBench.Proofs.CommandLine.Faults
import TriBench.Proofs.Run.Variants

/-!
# Quiet and verbose programs

Quietness and verbosity decide what is printed and nothing else. Main statement:
`quiet_verbose_without_influence`.
-/

namespace TriBench.CommandLine

section
variable {σ : Type} (env : Environment σ) (a : Arguments) (c : Config)

def tableOf : Text :=
  match (runOf env a c).1, a.out with
  | .ok (.ok ()), none => Report.console (runOf env a c).2.results
  | _, _ => []

structure SameCompletion (d d' : Completion) : Prop where
  code : d'.code = d.code
  stderr : d'.stderr = d.stderr
  files : d'.files = d.files
  calls : d'.calls = d.calls

variable (quiet verbose : Bool)

theorem runOf_echo : (runOf env { a with quiet, verbose } c).1 = (runOf env a c).1 ∧
    Progress.Echoes False (runOf env a c).2 (runOf env { a with quiet, verbose } c).2 ∧
    (quiet = true → (runOf env { a with quiet, verbose } c).2.session.printed = []) :=
  Run.echoing_all (settingOf env a c) ⟨quiet, env.toolbox c.tools.elevation⟩
    False a.verbose verbose False.elim a.prefixes (.refl False _) fun _ _ _ _ _ _ _ _ _ _ => rfl

/-- All output but the table goes with quietness. -/
theorem stdout_runWith : ∃ talk, (runWith env a c).stdout = talk ++ tableOf env a c ∧
    (a.quiet = true → (runOf env a c).2.session.printed = [] → talk = []) := by
  rcases h : runOf env a c with ⟨r, g⟩
  unfold tableOf
  rw [h]
  unfold runOf settingOf at h
  unfold runWith progress
  dsimp only
  rw [h]
  rcases r with f | e | ⟨⟩
  · exact ⟨_, (List.append_nil _).symm, by simp +contextual⟩
  · exact ⟨_, (List.append_nil _).symm, by simp +contextual [failed]⟩
  · dsimp only [deliver]
    cases a.out with
    | none => exact ⟨_, rfl, by simp +contextual⟩
    | some p =>
      dsimp only
      cases Report.write g.session.files p (Report.structured g.results) with
      | error e => exact ⟨_, (List.append_nil _).symm, by simp +contextual [failed]⟩
      | ok files =>
        refine ⟨_, (List.append_nil _).symm, ?_⟩
        simp +contextual [progress]

theorem same_completion (hends : (runOf env { a with quiet, verbose } c).1 = (runOf env a c).1)
    (hg : Progress.Echoes False (runOf env a c).2 (runOf env { a with quiet, verbose } c).2) :
    SameCompletion (runWith env a c) (runWith env { a with quiet, verbose } c) := by
  rcases h : runOf env a c with ⟨r, g⟩
  rcases h' : runOf env { a with quiet, verbose } c with ⟨r', s', results', tally'⟩
  rw [h, h'] at hends hg
  obtain ⟨⟨printed, hs, -⟩, hresults, -⟩ := hg
  dsimp only at hends hs hresults
  subst hends hs hresults
  unfold runOf settingOf at h h'
  unfold runWith
  dsimp only at h' ⊢
  rw [h, h']
  rcases r' with f | e | ⟨⟩
  · exact ⟨rfl, rfl, rfl, rfl⟩
  · exact ⟨rfl, rfl, rfl, rfl⟩
  · dsimp only [deliver]
    cases a.out with
    | none => exact ⟨rfl, rfl, rfl, rfl⟩
    | some p =>
      dsimp only
      cases Report.write g.session.files p (Report.structured g.results) <;> exact ⟨rfl, rfl, rfl, rfl⟩

end

/-- **Quiet and verbose.** Programs that differ in quietness and verbosity alone end in the same
way: their runs give the same commands and leave the same files, tools, results and tally, whatever
the tools answer, and so the programs leave the same report in its file. Where results are printed,
the same table is, and a quiet program prints nothing else. -/
theorem quiet_verbose_without_influence {σ : Type} (env : Environment σ) (a : Arguments) (c : Config)
    (quiet verbose : Bool) :
    let a' := { a with quiet, verbose }
    let after := (runOf env a c).2
    let after' := (runOf env a' c).2
    (runOf env a' c).1 = (runOf env a c).1 ∧
      after'.session = { after.session with printed := after'.session.printed } ∧
      after'.results = after.results ∧ after'.tally = after.tally ∧
      SameCompletion (runWith env a c) (runWith env a' c) ∧
      ∃ talk talk', (runWith env a c).stdout = talk ++ tableOf env a c ∧
        (runWith env a' c).stdout = talk' ++ tableOf env a c ∧ (quiet = true → talk' = []) := by
  obtain ⟨hends, hechoes, hsilent⟩ := runOf_echo env a c quiet verbose
  have hsame := same_completion env a c quiet verbose hends hechoes
  have htable : tableOf env { a with quiet, verbose } c = tableOf env a c := by
    unfold tableOf
    rw [hends, hechoes.results]
  have hsession : (runOf env { a with quiet, verbose } c).2.session =
      { (runOf env a c).2.session with
        printed := (runOf env { a with quiet, verbose } c).2.session.printed } := by
    obtain ⟨printed, hs, -⟩ := hechoes.session
    rw [hs]
  obtain ⟨talk, htalk, -⟩ := stdout_runWith env a c
  obtain ⟨talk', htalk', hquiet⟩ := stdout_runWith env { a with quiet, verbose } c
  rw [htable] at htalk'
  exact ⟨hends, hsession, hechoes.results, hechoes.tally, hsame, talk, talk', htalk, htalk',
    fun hq => hquiet hq (hsilent hq)⟩

end TriBench.CommandLine
