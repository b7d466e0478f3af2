import TriBench.CommandLine
import TriBench.Proofs.Build.Confinement
import TriBench.Proofs.Run.Faults
import TriBench.Proofs.Tool.Deadlines

/-!
# Settings that end a program

Neither the arguments nor the configuration are refused for a slash in an extension, or for a time
limit whose end the clock cannot tell. Main statement: `faults_from_settings`, nothing else can keep
a program from the last of its benchmarks, and `settings_end_program`, they do.
-/

namespace TriBench

/-- The faults that a configuration has in it, if the clock is read until some time. -/
inductive Config.Endangers (c : Config) (latest : Nat) : Fault → Prop
  | deadline (h : Invocation.deadlineFits latest c.timeoutMillis = false) :
    Endangers c latest .deadlineOverflow
  | slash {extension : Text} (hmem : extension ∈ [c.sourceExtension, c.moduleExtension])
    (h : '/' ∈ extension) :
    Endangers c latest (.slashInExtension extension)

theorem Setting.Risks.endangers {σ : Type} {st : Setting σ} {elevation : Text} {latest : Nat} {f : Fault}
    (h : st.Risks f) (ht : st.toolbox.Timed elevation latest) : st.config.Endangers latest f := by
  cases h with
  | command htimeout hf =>
    obtain ⟨rfl, hfits⟩ := Toolbox.fault_of_timed ht hf
    rw [htimeout] at hfits
    exact .deadline hfits
  | slash hmem hslash => exact .slash hmem hslash

namespace CommandLine

section
variable {σ : Type} (env : Environment σ) (a : Arguments) (c : Config)

def settingOf : Setting σ where
  config := c
  toolbox := env.toolbox c.tools.elevation
  quiet := a.quiet
  colours := env.colours

def runOf : Except Fault (Except Glob.PatternError Unit) × Progress σ :=
  (Run.all (settingOf env a c) a.verbose a.prefixes).run.run
    { session := { files := env.files, tools := env.tools } }

variable {env a c}

/-- The program tells by its exit code whether a fault has ended the run. -/
theorem code_runWith : (runWith env a c).code = faultCode ↔ ∃ f, (runOf env a c).1 = .error f := by
  have hone : (1 : Nat) ≠ faultCode := by decide
  have hzero : (0 : Nat) ≠ faultCode := by decide
  rcases h : runOf env a c with ⟨r, g⟩
  unfold runOf settingOf at h
  unfold runWith
  dsimp only
  rw [h]
  cases r with
  | error f => exact iff_of_true rfl ⟨f, rfl⟩
  | ok r =>
    refine iff_of_false ?_ (by rintro ⟨f, hf⟩; cases hf)
    cases r with
    | error e => exact hone
    | ok u =>
      dsimp only
      split
      · exact hone
      · exact hzero

theorem runArguments_of_accepted (ha : a.validate = .ok a) (hc : configure env.files a = .ok c) :
    runArguments env a = runWith env a c := by
  unfold runArguments
  rw [ha]
  dsimp only
  rw [hc]

end

/-- **What ends a program.** Whatever the tools answer, a program with accepted arguments and an
accepted configuration runs all benchmarks that it finds, and each has its element, unless there is
a slash in an extension of the configuration or the clock cannot tell the end of its time limit. -/
theorem faults_from_settings {σ : Type} (env : Environment σ) (latest : Nat)
    (hclock : ∀ elevation, (env.toolbox elevation).Timed elevation latest) (a : Arguments)
    (ha : a.validate = .ok a) (c : Config) (hc : configure env.files a = .ok c) :
    (∃ f, (runOf env a c).1 = .error f ∧ c.Endangers latest f ∧ (runArguments env a).code = faultCode) ∨
      (runOf env a c).1 = .ok (.ok ()) ∧ (runArguments env a).code ≠ faultCode ∧
        ∃ paths, Discovery.discover env.files c a.prefixes = .ok paths ∧
          (runOf env a c).2.tally.elements.map Element.name = paths.map (Benchmark.title c) := by
  have hrun : (∃ f, (runOf env a c).1 = .error f ∧ (settingOf env a c).Risks f) ∨
      (runOf env a c).1 = .ok (.ok ()) :=
    Run.all_runs (settingOf env a c) a.verbose a.prefixes _
  rw [runArguments_of_accepted ha hc, ne_eq, code_runWith]
  rcases hrun with ⟨f, hf, hrisks⟩ | hok
  · exact .inl ⟨f, hf, hrisks.endangers (hclock _), f, hf⟩
  · have hrecorded : ∃ paths, Discovery.discover env.files c a.prefixes = .ok paths ∧
        Run.Recorded c {} paths ((runOf env a c).1.map fun _ => ()) (runOf env a c).2.tally :=
      Run.all_recorded (settingOf env a c) a.verbose a.prefixes
        (g := { session := { files := env.files, tools := env.tools } })
        Tally.sound_empty
    obtain ⟨paths, hpaths, hrecorded⟩ := hrecorded
    obtain ⟨es, helements, -, hall⟩ := hrecorded.elements
    rw [hok] at hall
    refine .inr ⟨hok, ?_, paths, hpaths, ?_⟩
    · rintro ⟨f, hf⟩
      rw [hok] at hf
      cases hf
    · rw [helements, ← hall rfl]
      rfl

/-! ## Tools for a test -/

def promptly (now timeout : Nat) : List Invocation.Observation :=
  [.lookup true, .start (.ok ()), .deadline (Invocation.deadlineFits now timeout),
    .poll (.ok (some (.exited 0))), .output (some []), .output (some [])]

def promptTools (now : Nat) (elevation : Text) : Toolbox Unit where
  invoke c files tools :=
    match (Invocation.run elevation c (promptly now c.timeout)).phase with
    | .finished answer => (.ok answer, files, tools)
    | .aborted fault => (.error fault, files, tools)
    | _ => (.ok (.ok {}), files, tools)

theorem promptTools_timed (now : Nat) (elevation : Text) :
    (promptTools now elevation).Timed elevation now := by
  intro c files tools f hf
  refine ⟨now, Nat.le_refl _, promptly now c.timeout, ?_, ?_⟩
  · intro fits hmem
    simpa [promptly] using hmem
  · unfold promptTools at hf
    dsimp only at hf
    split at hf
    · cases hf
    · rename_i hphase
      cases hf
      exact hphase
    · cases hf

theorem faults_from_settings_host :
    let env : Environment Unit := ⟨Build.besides, Shell.Host.toolbox, (), false, 0⟩
    (∀ elevation, (env.toolbox elevation).Timed elevation Shell.Host.startMillis) ∧
      Arguments.validate {} = .ok {} ∧ configure env.files {} = .ok Build.inWork ∧
      ((∃ f, (runOf env {} Build.inWork).1 = .error f ∧ Build.inWork.Endangers Shell.Host.startMillis f ∧
          (runArguments env {}).code = faultCode) ∨
        (runOf env {} Build.inWork).1 = .ok (.ok ()) ∧ (runArguments env {}).code ≠ faultCode ∧
          ∃ paths, Discovery.discover env.files Build.inWork [] = .ok paths ∧
            (runOf env {} Build.inWork).2.tally.elements.map Element.name =
              paths.map (Benchmark.title Build.inWork)) := by
  exact ⟨Shell.Host.timed, rfl, rfl, faults_from_settings ⟨Build.besides, Shell.Host.toolbox, (), false, 0⟩
    Shell.Host.startMillis Shell.Host.timed {} rfl Build.inWork rfl⟩

theorem all_of_first_fault {σ : Type} {st : Setting σ} {verbose : Bool}
    {prefixes : List Text} {g : Progress σ} {p : Path} {paths : List Path} {b : Benchmark} {f : Fault}
    (hpaths : Discovery.discover g.session.files st.config prefixes = .ok (p :: paths))
    (hb : Benchmark.ofPath st.config p = .ok b)
    (hexecute : ∀ printed, ∃ g',
      (Run.execute st b).run.run { g with session.printed := printed } = (.error f, g') ∧
      g'.tally = g.tally) :
    ((Run.all st verbose prefixes).run.run g).1 = .error f ∧
      ((Run.all st verbose prefixes).run.run g).2.tally = g.tally := by
  obtain ⟨paths', line, hpaths', hall⟩ := Run.run_all st verbose prefixes g
  rw [hpaths] at hpaths'
  cases hpaths'
  obtain ⟨printed, hprint⟩ := Run.run_print st line g
  obtain ⟨printed', hbenchmark⟩ := Run.benchmark_of_ok verbose hb { g with session.printed := printed }
  obtain ⟨g', hg', htally⟩ := hexecute printed'
  rw [hg'] at hbenchmark
  dsimp only at hbenchmark
  rw [hall, Run.run_bind, hprint]
  dsimp only
  rw [Run.benchmarks, Run.run_bind, Run.run_bind, hbenchmark]
  exact ⟨rfl, htally⟩

/-- A fault in the first part of a composite ends the benchmark. -/
theorem execute_of_first_part {σ : Type} {st : Setting σ} {b : Benchmark} {q : Part} {qs : List Part}
    {f : Fault} {g : Progress σ} {s : Session σ} (hk : b.kind = .composite) (hparts : b.parts = q :: qs)
    (hpart : (Build.part st q).run g.session = (.error f, s)) :
    (Run.execute st b).run.run g = (.error f, { g with session := s }) := by
  have hbuild : (Build.parts st b.parts).run g.session = (.error f, s) := by
    rw [hparts, Build.parts, Act.run_bind, hpart]
  rw [Run.execute, hk]
  dsimp only
  rw [Run.composite, Run.run_bind, Run.run_attempt, hbuild]

def composites : Environment Unit where
  files :=
    .ofNodes ["w"] [(["w"], .directory), (["w", "tests"], .directory),
      (["w", "tests", "benchmarks"], .directory), (["w", "tests", "benchmarks", "a.grate"], .file [] false),
      (["w", "tests", "benchmarks", "b.grate"], .file [] false)]
  toolbox := promptTools 1000
  tools := ()
  colours := false
  elapsedSeconds := 0

def longest : Arguments := { quiet := true, timeout := some 18446744073709551615 }

def longestLimit : Config := { Build.inWork with timeout := 18446744073709551615 }

def slashed : Config := { Build.inWork with moduleExtension := "a/b" }

theorem parse_longest : Arguments.parse ["--quiet", "--timeout", "18446744073709551615"] = .ok longest := by
  have hnumber : Text.uint64? "18446744073709551615" = some 18446744073709551615 := by decide +kernel
  have hassign : Arguments.parse ["--quiet", "--timeout", "18446744073709551615"] =
    Arguments.assign { quiet := true } .timeout "18446744073709551615" := rfl
  rw [hassign, Arguments.assign, if_neg (by decide), Arguments.numberValue, hnumber]
  rfl

/-- The longest time limit is accepted, and so is an extension with a slash in it. Either ends the
program in its first benchmark, so that the second has no element. -/
theorem settings_end_program :
    let found : Except Glob.PatternError (List Path) :=
      .ok ["/w/tests/benchmarks/a.grate", "/w/tests/benchmarks/b.grate"]
    (∀ elevation, (composites.toolbox elevation).Timed elevation 1000) ∧
      (Config.resolve composites.files.workingPath { moduleExtension := "a/b" } = .ok slashed ∧
        Discovery.discover composites.files slashed [] = found ∧
        (runOf composites { quiet := true } slashed).1 = .error (.slashInExtension "a/b") ∧
        (runOf composites { quiet := true } slashed).2.tally.elements = []) ∧
      Arguments.parse ["--quiet", "--timeout", "18446744073709551615"] = .ok longest ∧
      longest.validate = .ok longest ∧
      configure composites.files longest = .ok longestLimit ∧
      Discovery.discover composites.files longestLimit [] = found ∧
      (runOf composites longest longestLimit).1 = .error .deadlineOverflow ∧
      (runOf composites longest longestLimit).2.tally.elements = [] ∧
      (runArguments composites longest).code = faultCode := by
  have hslashed : Discovery.discover composites.files slashed [] =
    .ok ["/w/tests/benchmarks/a.grate", "/w/tests/benchmarks/b.grate"] := by cbv
  have hlongest : Discovery.discover composites.files longestLimit [] =
    .ok ["/w/tests/benchmarks/a.grate", "/w/tests/benchmarks/b.grate"] := by cbv
  have hrunSlashed : (runOf composites { quiet := true } slashed).1 = .error (.slashInExtension "a/b") ∧
      (runOf composites { quiet := true } slashed).2.tally = {} :=
    all_of_first_fault (b := ⟨"a", "/w/tests/benchmarks/a.grate", .composite, [.source "a"]⟩) hslashed rfl
      fun printed => ⟨_, execute_of_first_part rfl rfl rfl, rfl⟩
  have hrunLongest : (runOf composites longest longestLimit).1 = .error .deadlineOverflow ∧
      (runOf composites longest longestLimit).2.tally = {} :=
    all_of_first_fault (b := ⟨"a", "/w/tests/benchmarks/a.grate", .composite, [.source "a"]⟩) hlongest rfl
      fun printed => ⟨_, execute_of_first_part rfl rfl rfl, rfl⟩
  have hconfig : configure composites.files longest = .ok longestLimit := rfl
  refine ⟨promptTools_timed 1000, ⟨rfl, hslashed, hrunSlashed.1, by rw [hrunSlashed.2]⟩, parse_longest,
    rfl, hconfig, hlongest, hrunLongest.1, by rw [hrunLongest.2], ?_⟩
  rw [runArguments_of_accepted rfl hconfig, code_runWith]
  exact ⟨_, hrunLongest.1⟩

end CommandLine

end TriBench
