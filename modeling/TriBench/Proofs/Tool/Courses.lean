import TriBench.Tool.Invocation

/-!
# Courses of invocations

What an invocation hears and does on its way to an answer: a program that has been started is polled
until it has exited, cannot be polled or is late, and one that has not exited with both outputs
closed in time is ended. Main statement: `run_eq_finished_iff`, the answers of invocations are those
at the ends of courses.
-/

namespace TriBench.Invocation

/-! ## What is heard -/

def Phase.awaits : Phase → Observation → Bool
  | .lookingUp, .lookup _ => true
  | .starting, .start _ => true
  | .timing, .deadline _ => true
  | .polling, .poll _ => true
  | .pausing, .clock _ => true
  | .collectingOutput _, .output _ => true
  | .collectingErrors _ _, .output _ => true
  | .ending _, .clock _ => true
  | .pollingEnd _, .poll _ => true
  | .killed _, .ended => true
  | _, _ => false

section
variable (elevation : Text) (c : Command)

def heardFrom (s : State) : List Observation → List Observation
  | [] => []
  | o :: os => if s.phase.awaits o then o :: heardFrom (step elevation c s o) os else heardFrom s os

def heard (os : List Observation) : List Observation := heardFrom elevation c {} os

variable {elevation c}

theorem step_of_not_awaits {s : State} {o : Observation} (h : s.phase.awaits o = false) :
    step elevation c s o = s := by
  obtain ⟨phase, actions⟩ := s
  cases phase with
  | collectingErrors status stdout => cases stdout <;> cases o <;> cases h <;> rfl
  | _ => cases o <;> cases h <;> rfl

theorem foldl_heardFrom (s : State) (os : List Observation) :
    (heardFrom elevation c s os).foldl (step elevation c) s = os.foldl (step elevation c) s := by
  induction os generalizing s with
  | nil => rfl
  | cons o os ih =>
    rw [heardFrom, List.foldl_cons]
    cases h : s.phase.awaits o with
    | true => exact ih (step elevation c s o)
    | false =>
      rw [step_of_not_awaits h]
      exact ih s

theorem heardFrom_sublist (s : State) (os : List Observation) : (heardFrom elevation c s os).Sublist os := by
  induction os generalizing s with
  | nil => exact List.Sublist.refl _
  | cons o os ih =>
    rw [heardFrom]
    cases s.phase.awaits o with
    | true => exact (ih (step elevation c s o)).cons_cons o
    | false => exact (ih s).cons o

theorem run_heard (os : List Observation) : run elevation c (heard elevation c os) = run elevation c os :=
  foldl_heardFrom {} os

/-! ## Courses -/

def waits (n : Nat) : List Observation := (List.replicate n [.poll (.ok none), .clock false]).flatten

def graces (n : Nat) : List Observation := (List.replicate n [.clock false, .poll (.ok none)]).flatten

def started (n : Nat) : List Observation := [.lookup true, .start (.ok ()), .deadline true] ++ waits n

def exited (n : Nat) (status : ExitStatus) (stdout stderr : Option Bytes) : List Observation :=
  started n ++ [.poll (.ok (some status)), .output stdout, .output stderr]

theorem waits_succ (n : Nat) : waits (n + 1) = waits n ++ [.poll (.ok none), .clock false] := by
  simp [waits, List.replicate_succ']

theorem graces_succ (n : Nat) : graces (n + 1) = graces n ++ [.clock false, .poll (.ok none)] := by
  simp [graces, List.replicate_succ']

/-- A program that has been asked to end is polled until its time for that is over, or until a poll
tells anything else than that it is running. -/
inductive Patience : List Observation → Prop
  | elapsed (n : Nat) : Patience (graces n ++ [.clock true])
  | ended (n : Nat) (status : ExitStatus) : Patience (graces n ++ [.clock false, .poll (.ok (some status))])
  | lost (n : Nat) (e : IoError) : Patience (graces n ++ [.clock false, .poll (.error e)])

variable (elevation c)

def launch : Action := .start (target elevation c).1 (target elevation c).2 c.directory

def tooLate : ToolFailure := .timeout (target elevation c).1 c.timeout

inductive Stops : List Observation → List Action → ToolFailure → Prop
  | late (n : Nat) :
    Stops (started n ++ [.poll (.ok none), .clock true]) [launch elevation c] (tooLate elevation c)
  | lost (n : Nat) (e : IoError) :
    Stops (started n ++ [.poll (.error e)]) [launch elevation c] (.waiting (target elevation c).1 e)
  | held (n : Nat) (status : ExitStatus) {stdout stderr : Option Bytes} (h : stdout = none ∨ stderr = none) :
    Stops (exited n status stdout stderr) [launch elevation c, .reap] (tooLate elevation c)

inductive Course : List Observation → List Action → Answer → Prop
  | missing : Course [.lookup false] [] (.error (.notFound (target elevation c).1))
  | unstarted (e : IoError) :
    Course [.lookup true, .start (.error e)] [launch elevation c]
      (.error (.spawning (target elevation c).1 e))
  | complete (n : Nat) (status : ExitStatus) (output : ToolOutput) :
    Course (exited n status (some output.stdout) (some output.stderr)) [launch elevation c, .reap]
      (answer (target elevation c).1 status output)
  | ended {hs ps : List Observation} {before : List Action} {cause : ToolFailure}
    (h : Stops elevation c hs before cause) (hp : Patience ps) :
    Course (hs ++ ps ++ [.ended]) (before ++ [.signal .terminate, .signal .kill, .reap]) (.error cause)

/-- What has been heard and done when an invocation is in a phase. -/
inductive Trail : List Observation → List Action → Phase → Prop
  | lookingUp : Trail [] [] .lookingUp
  | starting : Trail [.lookup true] [launch elevation c] .starting
  | timing : Trail [.lookup true, .start (.ok ())] [launch elevation c] .timing
  | aborted :
    Trail [.lookup true, .start (.ok ()), .deadline false] [launch elevation c] (.aborted .deadlineOverflow)
  | polling (n : Nat) : Trail (started n) [launch elevation c] .polling
  | pausing (n : Nat) : Trail (started n ++ [.poll (.ok none)]) [launch elevation c] .pausing
  | collectingOutput (n : Nat) (status : ExitStatus) :
    Trail (started n ++ [.poll (.ok (some status))]) [launch elevation c, .reap] (.collectingOutput status)
  | collectingErrors (n : Nat) (status : ExitStatus) (stdout : Option Bytes) :
    Trail (started n ++ [.poll (.ok (some status)), .output stdout]) [launch elevation c, .reap]
      (.collectingErrors status stdout)
  | ending {hs : List Observation} {before : List Action} {cause : ToolFailure}
    (h : Stops elevation c hs before cause) (n : Nat) :
    Trail (hs ++ graces n) (before ++ [.signal .terminate]) (.ending cause)
  | pollingEnd {hs : List Observation} {before : List Action} {cause : ToolFailure}
    (h : Stops elevation c hs before cause) (n : Nat) :
    Trail (hs ++ graces n ++ [.clock false]) (before ++ [.signal .terminate]) (.pollingEnd cause)
  | killed {hs ps : List Observation} {before : List Action} {cause : ToolFailure}
    (h : Stops elevation c hs before cause) (hp : Patience ps) :
    Trail (hs ++ ps) (before ++ [.signal .terminate, .signal .kill]) (.killed cause)
  | finished {hs : List Observation} {actions : List Action} {result : Answer}
    (h : Course elevation c hs actions result) : Trail hs actions (.finished result)

variable {elevation c} {hs ps : List Observation} {before actions : List Action}
    {cause : ToolFailure} {result : Answer}

/-! ## Every invocation leaves a trail -/

theorem Stops.trail (h : Stops elevation c hs before cause) :
    Trail elevation c hs (before ++ [.signal .terminate]) (.ending cause) := by
  have htrail := Trail.ending h 0
  rwa [graces, List.replicate_zero, List.flatten_nil, List.append_nil] at htrail

theorem Stops.trail_killed (h : Stops elevation c hs before cause) (hp : Patience ps) :
    Trail elevation c (hs ++ ps) (before ++ [.signal .terminate] ++ [.signal .kill]) (.killed cause) := by
  rw [List.append_assoc]
  exact .killed h hp

theorem Trail.step {s : State} {o : Observation} (h : Trail elevation c hs s.actions s.phase)
    (ho : s.phase.awaits o = true) :
    Trail elevation c (hs ++ [o]) (step elevation c s o).actions (step elevation c s o).phase := by
  obtain ⟨phase, actions⟩ := s
  dsimp only at h ho
  cases h with
  | lookingUp =>
    cases o with
    | lookup found =>
      cases found with
      | false => exact .finished .missing
      | true => exact .starting
    | _ => cases ho
  | starting =>
    cases o with
    | start result =>
      cases result with
      | error e => exact .finished (.unstarted e)
      | ok _ => exact .timing
    | _ => cases ho
  | timing =>
    cases o with
    | deadline fits =>
      cases fits with
      | false => exact .aborted
      | true => exact .polling 0
    | _ => cases ho
  | polling n =>
    cases o with
    | poll result =>
      cases result with
      | error e => exact (Stops.lost n e).trail
      | ok exit =>
        cases exit with
        | none => exact .pausing n
        | some status => exact .collectingOutput n status
    | _ => cases ho
  | pausing n =>
    cases o with
    | clock elapsed =>
      rw [List.append_assoc]
      cases elapsed with
      | false =>
        have hnext : Trail elevation c (started (n + 1)) [launch elevation c] .polling := .polling (n + 1)
        rwa [started, waits_succ, ← List.append_assoc] at hnext
      | true => exact (Stops.late n).trail
    | _ => cases ho
  | collectingOutput n status =>
    cases o with
    | output content =>
      rw [List.append_assoc]
      exact .collectingErrors n status content
    | _ => cases ho
  | collectingErrors n status stdout =>
    cases o with
    | output content =>
      rw [List.append_assoc]
      -- both outputs have been waited for, whether or not the first was closed in time
      cases stdout with
      | none => exact (Stops.held n status (.inl rfl)).trail
      | some out =>
        cases content with
        | none => exact (Stops.held n status (.inr rfl)).trail
        | some err => exact .finished (.complete n status ⟨out, err⟩)
    | _ => cases ho
  | ending h n =>
    cases o with
    | clock elapsed =>
      cases elapsed with
      | false => exact .pollingEnd h n
      | true =>
        rw [List.append_assoc]
        exact h.trail_killed (.elapsed n)
    | _ => cases ho
  | pollingEnd h n =>
    cases o with
    | poll result =>
      rw [List.append_assoc, List.append_assoc]
      cases result with
      | error e => exact h.trail_killed (.lost n e)
      | ok exit =>
        cases exit with
        | none =>
          have hnext := Trail.ending h (n + 1)
          rwa [graces_succ] at hnext
        | some status => exact h.trail_killed (.ended n status)
    | _ => cases ho
  | @killed hs ps before cause h hp =>
    cases o with
    | ended =>
      change Trail elevation c _ (before ++ [.signal .terminate, .signal .kill] ++ [.reap])
          (.finished (.error cause))
      rw [List.append_assoc before]
      exact .finished (.ended h hp)
    | _ => cases ho
  | aborted => cases o <;> cases ho
  | finished h => cases o <;> cases ho

theorem Trail.foldl {s : State} (h : Trail elevation c hs s.actions s.phase) (os : List Observation) :
    Trail elevation c (hs ++ heardFrom elevation c s os) (os.foldl (Invocation.step elevation c) s).actions
      (os.foldl (Invocation.step elevation c) s).phase := by
  induction os generalizing hs s with
  | nil => rwa [heardFrom, List.append_nil]
  | cons o os ih =>
    rw [heardFrom, List.foldl_cons]
    cases ho : s.phase.awaits o with
    | true =>
      have hnext := ih (h.step ho)
      rwa [List.append_assoc] at hnext
    | false =>
      rw [step_of_not_awaits ho]
      exact ih h

variable (elevation c) in
theorem run_trail (os : List Observation) :
    Trail elevation c (heard elevation c os) (run elevation c os).actions (run elevation c os).phase := by
  have hstart : Trail elevation c [] ({} : State).actions ({} : State).phase := .lookingUp
  exact hstart.foldl os

/-! ## Every course is taken -/

theorem foldl_repeated {s : State} {os : List Observation} (h : os.foldl (step elevation c) s = s) (n : Nat) :
    (List.replicate n os).flatten.foldl (step elevation c) s = s := by
  induction n with
  | zero => rfl
  | succ n ih => rw [List.replicate_succ, List.flatten_cons, List.foldl_append, h, ih]

theorem foldl_graces (cause : ToolFailure) (actions : List Action) (n : Nat) :
    (graces n).foldl (step elevation c) ⟨.ending cause, actions⟩ = ⟨.ending cause, actions⟩ :=
  foldl_repeated rfl n

theorem run_started (n : Nat) (os : List Observation) :
    run elevation c (started n ++ os) = os.foldl (step elevation c) ⟨.polling, [launch elevation c]⟩ := by
  have hwaits : (waits n).foldl (step elevation c) ⟨.polling, [launch elevation c]⟩ =
      ⟨.polling, [launch elevation c]⟩ :=
    foldl_repeated rfl n
  rw [run, started, List.append_assoc, List.foldl_append, List.foldl_append]
  exact congrArg (os.foldl (step elevation c)) hwaits

theorem Stops.run_eq (h : Stops elevation c hs before cause) :
    run elevation c hs = ⟨.ending cause, before ++ [.signal .terminate]⟩ := by
  cases h with
  | late n => exact run_started n _
  | lost n e => exact run_started n _
  | held n status h =>
    rw [exited, run_started]
    cases h with
    | inl h => cases h; rfl
    | inr h => cases h; cases ‹Option Bytes› <;> rfl

theorem Patience.foldl_eq (h : Patience ps) (cause : ToolFailure) (actions : List Action) :
    ps.foldl (step elevation c) ⟨.ending cause, actions⟩ = ⟨.killed cause, actions ++ [.signal .kill]⟩ := by
  cases h with
  | elapsed n => rw [List.foldl_append, foldl_graces]; rfl
  | ended n status => rw [List.foldl_append, foldl_graces]; rfl
  | lost n e => rw [List.foldl_append, foldl_graces]; rfl

theorem Course.run_eq (h : Course elevation c hs actions result) :
    run elevation c hs = ⟨.finished result, actions⟩ := by
  cases h with
  | missing => rfl
  | unstarted e => rfl
  | complete n status output => exact run_started n _
  | @ended hs ps before cause h hp =>
    have hrun : run elevation c hs = ⟨.ending cause, before ++ [.signal .terminate]⟩ := h.run_eq
    rw [run] at hrun ⊢
    rw [List.foldl_append, List.foldl_append, hrun, hp.foldl_eq]
    change (⟨.finished (.error cause),
        before ++ [.signal .terminate] ++ [.signal .kill] ++ [.reap]⟩ : State) = _
    rw [List.append_assoc, List.append_assoc]
    rfl

theorem Trail.course (h : Trail elevation c hs actions (.finished result)) :
    Course elevation c hs actions result := by
  cases h with
  | finished h => exact h

/-- Answers are given at the ends of courses, and nowhere else. -/
theorem run_eq_finished_iff {os : List Observation} :
    run elevation c os = ⟨.finished result, actions⟩ ↔
      Course elevation c (heard elevation c os) actions result := by
  constructor
  · intro h
    have htrail := run_trail elevation c os
    rw [h] at htrail
    exact htrail.course
  · intro h
    rw [← run_heard]
    exact h.run_eq

theorem course_of_finished {os : List Observation} (h : (run elevation c os).phase = .finished result) :
    Course elevation c (heard elevation c os) (run elevation c os).actions result := by
  rw [← run_eq_finished_iff, ← h]

end

end TriBench.Invocation
