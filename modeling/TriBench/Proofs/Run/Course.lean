import TriBench.Proofs.Benchmark.Names
import TriBench.Proofs.Run.Steps

/-!
# The course of a benchmark

A benchmark runs as a build, which says what is to be executed for which platform, and then as one
attempt after another. Main statement: `benchmark_course`, all that can happen from the file of a
benchmark to its element in the tally.
-/

namespace TriBench

def Benchmark.Kind.platforms : Benchmark.Kind → List Platform
  | simple => [.lind, .linux]
  | composite => [.grate]

namespace Act
variable {σ ε α : Type} {a : Act σ ε α} {s s' : Session σ} {r : Ending ε α} {new : List Call}

def Ends (a : Act σ ε α) (s : Session σ) (r : Ending ε α) (new : List Call) : Prop :=
  (a.run s).1 = r ∧ (a.run s).2.calls = s.calls ++ new

theorem LogsFrom.of_ends {Q : Ending ε α → List Call → Prop} (h : a.LogsFrom s Q)
    (he : a.Ends s r new) : Q r new := by
  obtain ⟨new', hnew, hq⟩ := h
  have hn : new' = new := List.append_cancel_left (hnew.symm.trans he.2)
  rwa [hn, he.1] at hq

theorem ends_of_run (h : a.run s = (r, s')) (hnew : s'.calls = s.calls ++ new) : a.Ends s r new := by
  rw [Ends, h]
  exact ⟨rfl, hnew⟩

end Act

section
variable {σ : Type} (st : Setting σ)

namespace Run

/-! ## The build and its plan -/

def planOf (b : Benchmark) : Act σ BuildError (List (Platform × Command)) :=
  match b.kind with
  | .simple => do
    let built ← Build.both st b
    pure [(.lind, Execution.bootCommand st [built.2.path]), (.linux, st.command built.1.path.text)]
  | .composite => do
    let artifacts ← Build.parts st b.parts
    pure [(.grate, Execution.bootCommand st (artifacts.map Artifact.path))]

theorem planOf_prepares (b : Benchmark) : (planOf st b).Prepares st BuildError.tool? := by
  unfold planOf
  split
  · exact (Build.both_prepares st b).bind fun _ => .pure _
  · exact (Build.parts_prepares st b.parts).bind fun _ => .pure _

/-- A plan names the platforms of the kind, with commands that execute what was built: natively on
the platform of native programs and in the sandbox on all others. -/
structure Executable (b : Benchmark) (plan : List (Platform × Command)) : Prop where
  platforms : plan.map Prod.fst = b.kind.platforms
  executes : ∀ t ∈ plan, t.2.Executes
  privileged : ∀ t ∈ plan, (t.2.privileged = true ↔ t.1 ≠ .linux)

variable {st}

theorem executable_of_planOf {b : Benchmark} {s : Session σ} {plan : List (Platform × Command)}
    {new : List Call}
    (h : (planOf st b).Ends s (.ok (.ok plan)) new) : Executable b plan := by
  have hs : (planOf st b).run s = (.ok (.ok plan), ((planOf st b).run s).2) := Prod.ext h.1 rfl
  unfold planOf at hs
  cases hk : b.kind with
  | simple =>
    simp only [hk] at hs
    obtain ⟨built, _, -, hs⟩ := Act.run_bind_value hs
    cases hs
    exact ⟨by rw [hk]; rfl, by simp [Execution.boot_executes, Execution.native_executes],
      by simp [Execution.bootCommand, Command.withPrivileges, Setting.command]⟩
  | composite =>
    simp only [hk] at hs
    obtain ⟨artifacts, _, -, hs⟩ := Act.run_bind_value hs
    cases hs
    exact ⟨by rw [hk]; rfl, by simp [Execution.boot_executes],
      by simp [Execution.bootCommand, Command.withPrivileges]⟩

variable (st) in
theorem execute_cases {b : Benchmark} (hb : b.parts ≠ []) (g : Progress σ) :
    match (planOf st b).run g.session with
    | (.error f, s) => (execute st b).run.run g = (.error f, { g with session := s })
    | (.ok (.error e), s) => (execute st b).run.run g = (.ok (.skipped [.ofBuild e]), { g with session := s })
    | (.ok (.ok plan), s) => Executed st [] plan { g with session := s } ((execute st b).run.run g) := by
  unfold execute planOf
  cases b.kind with
  | simple =>
    simp only [simple]
    rw [run_bind, run_attempt, Act.run_bind]
    rcases (Build.both st b).run g.session with ⟨f | e | ⟨program, module⟩, s⟩
    · rfl
    · rfl
    · refine executed_cons (Execution.sandboxed_gives st (by simp) .lind) (fun lind g => ?_) _
      refine executed_cons (Execution.native_gives st _) (fun linux g => ?_) g
      exact executed_nil g
  | composite =>
    simp only [composite]
    rw [run_bind, run_attempt, Act.run_bind]
    rcases hr : (Build.parts st b.parts).run g.session with ⟨f | e | artifacts, s⟩
    · rfl
    · rfl
    · have hne : artifacts.map Artifact.path ≠ [] := by
        have := Build.length_of_parts st hr
        intro h
        rw [List.map_eq_nil_iff.1 h] at this
        exact hb (List.length_eq_zero_iff.1 this.symm)
      refine executed_cons (Execution.sandboxed_gives st hne .grate) (fun grate g => ?_) _
      exact executed_nil g

/-! ## From the file to the element -/

variable (st)

/-- All that can happen in a benchmark from a session on: how it ends, the calls of its build, and
the attempts. -/
inductive Course (p : Path) (s : Session σ) : Except Fault Element → List Call → List Attempt → Prop
  | rejected {e : DefinitionError} (h : Benchmark.ofPath st.config p = .error e) :
    Course p s (.ok ⟨p.text, .skipped [.ofBuild (.definition e)]⟩) [] []
  | buildFault {b : Benchmark} {f : Fault} {new : List Call} (h : Benchmark.ofPath st.config p = .ok b)
    (hplan : (planOf st b).Ends s (.error f) new) : Course p s (.error f) new []
  | buildFailed {b : Benchmark} {e : BuildError} {new : List Call} (h : Benchmark.ofPath st.config p = .ok b)
    (hplan : (planOf st b).Ends s (.ok (.error e)) new) :
    Course p s (.ok ⟨b.name, .skipped [.ofBuild e]⟩) new []
  | fault {b : Benchmark} {f : Fault} {plan : List (Platform × Command)} {new : List Call} {as : List Attempt}
    (h : Benchmark.ofPath st.config p = .ok b) (hplan : (planOf st b).Ends s (.ok (.ok plan)) new)
    (hf : st.CanMeet f) (has : as.map Attempt.target <+: plan) : Course p s (.error f) new as
  | finished {b : Benchmark} {plan : List (Platform × Command)} {new : List Call} {as : List Attempt}
    (h : Benchmark.ofPath st.config p = .ok b) (hplan : (planOf st b).Ends s (.ok (.ok plan)) new)
    (has : as.map Attempt.target = plan) : Course p s (.ok ⟨b.name, Attempt.outcome as⟩) new as

namespace Course
variable {st} {p : Path} {s : Session σ} {ending : Except Fault Element} {new : List Call} {as : List Attempt}

theorem prepares (h : Course st p s ending new as) : ∀ c ∈ new, ¬ c.command.Executes := by
  cases h with
  | rejected => simp
  | buildFault _ hplan | buildFailed _ hplan | fault _ hplan | finished _ hplan =>
    exact ((planOf_prepares st _ _).of_ends hplan).2

end Course

def tallied (t : Tally) : Except Fault Element → Tally
  | .error _ => t
  | .ok e => t.push e

/-- The calls are in the log, what was accepted is in the results, and the element, if there is one,
is in the tally. -/
structure Taken (g : Progress σ) (ending : Except Fault Element) (new : List Call) (as : List Attempt)
    (run : Except Fault Unit × Progress σ) : Prop where
  ends : run.1 = ending.map fun _ => ()
  calls : run.2.session.calls = g.session.calls ++ new ++ as.map Attempt.call
  results : run.2.results = as.foldl Attempt.into g.results
  tally : run.2.tally = tallied g.tally ending

variable {st}

theorem benchmark_of_error (verbose : Bool) {p : Path} {e : DefinitionError}
    (h : Benchmark.ofPath st.config p = .error e) (g : Progress σ) :
    Taken g (.ok ⟨p.text, .skipped [.ofBuild (.definition e)]⟩) [] []
      ((benchmark st verbose p).run.run g) := by
  unfold benchmark
  rw [h]
  obtain ⟨printed, hr⟩ := run_record st verbose p.text (.skipped [.ofBuild (.definition e)]) g
  dsimp only
  rw [hr]
  exact ⟨rfl, by simp, rfl, rfl⟩

theorem benchmark_of_ok (verbose : Bool) {p : Path} {b : Benchmark}
    (h : Benchmark.ofPath st.config p = .ok b)
    (g : Progress σ) :
    ∃ printed, match (execute st b).run.run { g with session.printed := printed } with
      | (.error f, g') => (benchmark st verbose p).run.run g = (.error f, g')
      | (.ok o, g') => ∃ printed', (benchmark st verbose p).run.run g =
          (.ok (), { g' with session.printed := printed', tally := g'.tally.push ⟨b.name, o⟩ }) := by
  unfold benchmark
  rw [h]
  dsimp only
  obtain ⟨printed, hp⟩ :=
    run_print st (Style.paintFilled st.colours .heading (Text.padLeft labelWidth) "Benchmarking" ++
    ' ' :: b.name) g
  refine ⟨printed, ?_⟩
  rw [run_bind, hp]
  dsimp only
  rw [run_bind]
  rcases (execute st b).run.run { g with session.printed := printed } with ⟨f | o, g'⟩
  · rfl
  · exact run_record st verbose b.name o g'

/-- **The course of a benchmark.** Whatever a benchmark does to the log, the results and the tally is
told by its course. -/
theorem benchmark_course (st : Setting σ) (verbose : Bool) (p : Path) (g : Progress σ) :
    ∃ printed ending new as, Course st p { g.session with printed } ending new as ∧
      Taken g ending new as ((benchmark st verbose p).run.run g) := by
  cases h : Benchmark.ofPath st.config p with
  | error e => exact ⟨g.session.printed, _, _, _, .rejected h, benchmark_of_error verbose h g⟩
  | ok b =>
    obtain ⟨printed, hrun⟩ := benchmark_of_ok verbose h g
    have hexecute := execute_cases st (Benchmark.parts_ne_nil h) { g with session.printed := printed }
    obtain ⟨new, hnew, -⟩ := planOf_prepares st b { g.session with printed }
    refine ⟨printed, ?_⟩
    rcases hplan : (planOf st b).run { g.session with printed } with ⟨f | e | plan, s⟩ <;>
      rw [hplan] at hexecute hnew <;> have hends := Act.ends_of_run hplan hnew <;> dsimp only at hexecute hnew
    · rw [hexecute] at hrun
      refine ⟨_, new, [], .buildFault h hends, ?_⟩
      dsimp only at hrun
      rw [hrun]
      exact ⟨rfl, by simpa using hnew, rfl, rfl⟩
    · rw [hexecute] at hrun
      obtain ⟨printed', hrun⟩ := hrun
      refine ⟨_, new, [], .buildFailed h hends, ?_⟩
      rw [hrun]
      exact ⟨rfl, by simpa using hnew, rfl, rfl⟩
    · rcases hx : (execute st b).run.run { g with session.printed := printed } with ⟨r, g'⟩
      rw [hx] at hrun hexecute
      obtain ⟨as, hafter, ⟨ho, has⟩ | ⟨f, ho, hf, has⟩⟩ := hexecute
      · subst ho
        obtain ⟨printed', hrun⟩ := hrun
        refine ⟨_, new, as, .finished h hends has, ?_⟩
        rw [hrun]
        exact ⟨rfl, by rw [← hnew]; exact hafter.calls, hafter.results, by rw [hafter.tally]; rfl⟩
      · subst ho
        refine ⟨_, new, as, .fault h hends hf has, ?_⟩
        dsimp only at hrun
        rw [hrun]
        exact ⟨rfl, by rw [← hnew]; exact hafter.calls, hafter.results, hafter.tally⟩

end Run

end

end TriBench
