import TriBench.Proofs.Tool.Courses

/-!
# Answers of invocations

An answer with output is given only for a program that has exited with both outputs closed, the
child is reaped before any answer, and signals are sent only to a program that is late or cannot be
polled. Main statement: `answers_follow_observations`, for every sequence of observations.
-/

namespace TriBench.Invocation

section
variable {elevation : Text} {c : Command} {hs ps : List Observation} {before actions : List Action}
  {cause : ToolFailure} {result : Answer}

/-! ## Courses by their answers -/

variable (elevation c) in
def IsStop (cause : ToolFailure) : Prop :=
  cause = tooLate elevation c ∨ ∃ e, cause = .waiting (target elevation c).1 e

theorem Stops.isStop (h : Stops elevation c hs before cause) : IsStop elevation c cause := by
  cases h with
  | late n => exact .inl rfl
  | lost n e => exact .inr ⟨e, rfl⟩
  | held n status h => exact .inl rfl

theorem answer_eq_ok_iff {program : Text} {status : ExitStatus} {output output' : ToolOutput} :
    answer program status output = .ok output' ↔ status = .exited 0 ∧ output = output' := by
  unfold answer
  by_cases h : status = .exited 0
  · simp [h]
  · simp [h]

theorem answer_eq_error_iff {program : Text} {status : ExitStatus} {output : ToolOutput} :
    answer program status output = .error cause ↔ status ≠ .exited 0 ∧
      cause = .exit program status.code? output := by
  unfold answer
  by_cases h : status = .exited 0
  · simp [h]
  · simp [h, eq_comm]

theorem course_ok_iff {output : ToolOutput} :
    Course elevation c hs actions (.ok output) ↔ actions = [launch elevation c, .reap] ∧
      ∃ n, hs = exited n (.exited 0) (some output.stdout) (some output.stderr) := by
  constructor
  · intro h
    generalize hr : (.ok output : Answer) = r at h
    cases h with
    | complete n status output' =>
      obtain ⟨rfl, rfl⟩ := answer_eq_ok_iff.1 hr.symm
      exact ⟨rfl, n, rfl⟩
    | _ => cases hr
  · intro h
    obtain ⟨rfl, n, rfl⟩ := h
    exact .complete n (.exited 0) output

theorem course_exit_iff {program : Text} {code : Option Int} {output : ToolOutput} :
    Course elevation c hs actions (.error (.exit program code output)) ↔
      program = (target elevation c).1 ∧ actions = [launch elevation c, .reap] ∧
      ∃ n status, status ≠ .exited 0 ∧
        code = status.code? ∧ hs = exited n status (some output.stdout) (some output.stderr) := by
  constructor
  · intro h
    generalize hr : (.error (.exit program code output) : Answer) = r at h
    cases h with
    | complete n status output' =>
      obtain ⟨hstatus, hcause⟩ := answer_eq_error_iff.1 hr.symm
      cases hcause
      exact ⟨rfl, rfl, n, status, hstatus, rfl, rfl⟩
    | ended h hp =>
      cases hr
      rcases h.isStop with h | ⟨e, h⟩
      · cases h
      · cases h
    | _ => cases hr
  · intro h
    obtain ⟨rfl, rfl, n, status, hstatus, rfl, rfl⟩ := h
    have hcourse : Course elevation c _ _ _ := .complete n status output
    rwa [answer, if_neg hstatus] at hcourse

/-! ## Programs that are asked to end -/

inductive Phase.EndsFor (cause : ToolFailure) : Phase → Prop
  | ending : EndsFor cause (.ending cause)
  | pollingEnd : EndsFor cause (.pollingEnd cause)
  | killed : EndsFor cause (.killed cause)
  | finished : EndsFor cause (.finished (.error cause))

theorem endsFor_step {s : State} (h : s.phase.EndsFor cause) (o : Observation) :
    (step elevation c s o).phase.EndsFor cause := by
  obtain ⟨phase, actions⟩ := s
  dsimp only at h
  cases h with
  | ending =>
    cases o with
    | clock elapsed =>
      cases elapsed with
      | false => exact .pollingEnd
      | true => exact .killed
    | _ => exact .ending
  | pollingEnd =>
    cases o with
    | poll result =>
      cases result with
      | error e => exact .killed
      | ok exit =>
        cases exit with
        | none => exact .ending
        | some status => exact .killed
    | _ => exact .pollingEnd
  | killed =>
    cases o with
    | ended => exact .finished
    | _ => exact .killed
  | finished => cases o <;> exact .finished

theorem endsFor_foldl {s : State} (h : s.phase.EndsFor cause) (os : List Observation) :
    (os.foldl (step elevation c) s).phase.EndsFor cause := by
  induction os generalizing s with
  | nil => exact h
  | cons o os ih => exact ih (endsFor_step h o)

theorem endsFor_of_stops {os : List Observation} (h : Stops elevation c hs before cause)
    (hpre : hs <+: heard elevation c os) :
    (run elevation c os).phase.EndsFor cause := by
  obtain ⟨rest, hrest⟩ := hpre
  have hstop : hs.foldl (step elevation c) {} = ⟨.ending cause, before ++ [.signal .terminate]⟩ := h.run_eq
  rw [← run_heard, ← hrest, run, List.foldl_append, hstop]
  exact endsFor_foldl .ending rest

/-- The group is asked to end, it is killed, and the program is reaped, with no signal before and
nothing after that. -/
def EndsInSignals (actions : List Action) : Prop :=
  ∃ before, actions = before ++ [.signal .terminate, .signal .kill, .reap] ∧ ∀ signal, .signal signal ∉ before

theorem Stops.not_signal_mem (h : Stops elevation c hs before cause) (signal : Signal) :
    .signal signal ∉ before := by
  cases h with
  | late n => simp [launch]
  | lost n e => simp [launch]
  | held n status h => simp [launch]

theorem Course.endsInSignals (h : Course elevation c hs actions (.error cause))
    (hcause : (∃ program millis, cause = .timeout program millis) ∨ ∃ program e, cause = .waiting program e) :
    EndsInSignals actions := by
  generalize hr : (.error cause : Answer) = r at h
  cases h with
  | missing => cases hr; simp at hcause
  | unstarted e => cases hr; simp at hcause
  | complete n status output =>
    obtain ⟨-, rfl⟩ := answer_eq_error_iff.1 hr.symm
    simp at hcause
  | ended h hp => exact ⟨_, rfl, h.not_signal_mem⟩

theorem Trail.endsFor_of_signal {phase : Phase} {signal : Signal} (h : Trail elevation c hs actions phase)
    (hmem : .signal signal ∈ actions) : ∃ cause, IsStop elevation c cause ∧ phase.EndsFor cause := by
  cases h with
  | ending h n => exact ⟨_, h.isStop, .ending⟩
  | pollingEnd h n => exact ⟨_, h.isStop, .pollingEnd⟩
  | killed h hp => exact ⟨_, h.isStop, .killed⟩
  | finished h =>
    cases h with
    | ended h hp => exact ⟨_, h.isStop, .finished⟩
    | _ => simp [launch] at hmem
  | _ => simp [launch] at hmem

theorem Course.getLast?_actions (h : Course elevation c hs actions result) (hstart : .start (.ok ()) ∈ hs) :
    actions.getLast? = some .reap := by
  cases h with
  | missing => simp at hstart
  | unstarted e => simp at hstart
  | complete n status output => rfl
  | ended h hp => simp

variable (elevation c) in
def StartsOnce (actions : List Action) : Prop :=
  ∃ rest, actions = launch elevation c :: rest ∧
    ∀ program arguments directory, .start program arguments directory ∉ rest

theorem Stops.startsOnce (h : Stops elevation c hs before cause) {after : List Action}
    (hafter : ∀ program arguments directory, .start program arguments directory ∉ after) :
    StartsOnce elevation c (before ++ after) := by
  cases h with
  | late n => exact ⟨after, rfl, hafter⟩
  | lost n e => exact ⟨after, rfl, hafter⟩
  | held n status h => exact ⟨.reap :: after, rfl, by simpa using hafter⟩

theorem Trail.start_cases {phase : Phase} (h : Trail elevation c hs actions phase) :
    actions = [] ∧ .lookup true ∉ hs ∨ StartsOnce elevation c actions := by
  cases h with
  | lookingUp => exact .inl ⟨rfl, List.not_mem_nil⟩
  | ending h n => exact .inr (h.startsOnce (by simp))
  | pollingEnd h n => exact .inr (h.startsOnce (by simp))
  | killed h hp => exact .inr (h.startsOnce (by simp))
  | finished h =>
    cases h with
    | missing => exact .inl ⟨rfl, by simp⟩
    | ended h hp => exact .inr (h.startsOnce (by simp))
    | _ => exact .inr ⟨_, rfl, by simp⟩
  | _ => exact .inr ⟨_, rfl, by simp⟩

theorem privileged_iff_of_launch {program : Text} {arguments : List Text} {directory : Option Path}
    (h : .start program arguments directory = launch elevation c) :
    (program = elevation ∧ arguments = c.program :: c.arguments ↔ c.privileged = true) ∧
      (c.privileged = false → program = c.program ∧ arguments = c.arguments) := by
  rw [launch, target] at h
  cases hp : c.privileged with
  | false =>
    rw [hp] at h
    cases h
    simp
  | true =>
    rw [hp] at h
    cases h
    simp

end

/-! ## What follows from what -/

/-- What has been heard and done, and the answer that is given, each in view of the others. -/
structure Accounts (elevation : Text) (c : Command) (seen : List Observation) (s : State) : Prop where
  starts : .lookup true ∈ seen → ∃ program arguments rest,
    s.actions = .start program arguments c.directory :: rest ∧
    ∀ program arguments directory, .start program arguments directory ∉ rest
  privileged : ∀ program arguments directory, .start program arguments directory ∈ s.actions →
    (program = elevation ∧ arguments = c.program :: c.arguments ↔ c.privileged = true) ∧
      (c.privileged = false → program = c.program ∧ arguments = c.arguments)
  succeeds : ∀ output, s.phase = .finished (.ok output) ↔
    ∃ n, seen = exited n (.exited 0) (some output.stdout) (some output.stderr)
  exits : ∀ program code output, s.phase = .finished (.error (.exit program code output)) ↔
    program = (target elevation c).1 ∧ ∃ n status, status ≠ .exited 0 ∧ code = status.code? ∧
      seen = exited n status (some output.stdout) (some output.stderr)
  /-- Whoever still holds an output when it is no longer waited for makes the program late, however
  it has exited. -/
  held : ∀ n status stdout stderr, exited n status stdout stderr <+: seen → stdout = none ∨ stderr = none →
    ∀ result, s.phase = .finished result → result = .error (.timeout (target elevation c).1 c.timeout)
  reaped : .start (.ok ()) ∈ seen → ∀ result, s.phase = .finished result → s.actions.getLast? = some .reap
  ended : ∀ cause, (∃ program millis, cause = .timeout program millis) ∨
    (∃ program e, cause = .waiting program e) →
    s.phase = .finished (.error cause) → EndsInSignals s.actions
  /-- Once a signal has been sent, there is no other answer than that the program is late or cannot
  be polled. -/
  signalled : ∀ signal, .signal signal ∈ s.actions → ∃ cause, IsStop elevation c cause ∧ s.phase.EndsFor cause

/-- **Answers follow from what is observed.** -/
theorem answers_follow_observations (elevation : Text) (c : Command) (os : List Observation) :
    (heard elevation c os).Sublist os ∧ run elevation c (heard elevation c os) = run elevation c os ∧
      Accounts elevation c (heard elevation c os) (run elevation c os) := by
  have htrail := run_trail elevation c os
  refine ⟨heardFrom_sublist {} os, run_heard os, ?_⟩
  constructor
  case starts =>
    intro hlookup
    rcases htrail.start_cases with ⟨-, hmissing⟩ | ⟨rest, hactions, hrest⟩
    · exact absurd hlookup hmissing
    · exact ⟨_, _, rest, hactions, hrest⟩
  case privileged =>
    intro program arguments directory hmem
    rcases htrail.start_cases with ⟨hactions, -⟩ | ⟨rest, hactions, hrest⟩
    · rw [hactions] at hmem
      cases hmem
    · rw [hactions] at hmem
      have hlaunch := (List.mem_cons.1 hmem).resolve_right (hrest program arguments directory)
      exact privileged_iff_of_launch hlaunch
  case succeeds =>
    intro output
    constructor
    · intro h
      exact (course_ok_iff.1 (course_of_finished h)).2
    · intro h
      rw [run_eq_finished_iff.2 (course_ok_iff.2 ⟨rfl, h⟩)]
  case exits =>
    intro program code output
    constructor
    · intro h
      have hcourse := course_exit_iff.1 (course_of_finished h)
      exact ⟨hcourse.1, hcourse.2.2⟩
    · intro h
      rw [run_eq_finished_iff.2 (course_exit_iff.2 ⟨h.1, rfl, h.2⟩)]
  case held =>
    intro n status stdout stderr hpre hheld result h
    have hends := endsFor_of_stops (.held n status hheld) hpre
    rw [h] at hends
    cases hends
    rfl
  case reaped =>
    intro hstart result h
    exact (course_of_finished h).getLast?_actions hstart
  case ended =>
    intro cause hcause h
    exact (course_of_finished h).endsInSignals hcause
  case signalled =>
    intro signal hmem
    exact htrail.endsFor_of_signal hmem

/-- The program has exited at once, but whoever it has left behind holds its standard error until
the deadline. -/
example :
    let c : Command := { program := "sh", arguments := ["-c"], privileged := true, timeout := 300 }
    let s := run "sudo" c [.lookup true, .start (.ok ()), .deadline true, .poll (.ok (some (.exited 0))),
      .output (some []), .output none, .clock false, .poll (.ok (some (.exited 0))), .ended]
    s.phase = .finished (.error (.timeout "sudo" 300)) ∧
      s.actions = [.start "sudo" ["sh", "-c"] none, .reap, .signal .terminate, .signal .kill, .reap] :=
  ⟨rfl, rfl⟩

end TriBench.Invocation
