import TriBench.Run
import TriBench.Proofs.Results.Records

/-!
# Attempts at a measurement

An attempt is an execution that was answered. It is accepted if its command succeeded and the table
takes in what it has written; otherwise it comes to one failure. Attempts in order come to an
outcome and to what they add to the table.
-/

namespace TriBench

structure Attempt where
  platform : Platform
  command : Command
  answer : Answer

namespace Attempt

def call (a : Attempt) : Call := ⟨a.command, a.answer⟩

def target (a : Attempt) : Platform × Command := (a.platform, a.command)

def output (a : Attempt) : Text :=
  match a.answer with
  | .ok o => Utf8.decode o.stdout
  | .error _ => []

def accepted (a : Attempt) : Bool :=
  match a.answer with
  | .ok o => (Sample.parseBatch (Utf8.decode o.stdout)).isOk
  | .error _ => false

def failure? (a : Attempt) : Option Failure :=
  match a.answer with
  | .ok o =>
    match Sample.parseBatch (Utf8.decode o.stdout) with
    | .ok _ => none
    | .error e => some (.malformedOutput a.platform e)
  | .error e => some (.execution (.tool a.platform e))

theorem failure?_isNone (a : Attempt) : a.failure?.isNone = a.accepted := by
  unfold failure? accepted
  cases a.answer with
  | error e => rfl
  | ok o => simp only; cases Sample.parseBatch (Utf8.decode o.stdout) <;> rfl

theorem failure?_cases {a : Attempt} {f : Failure} (h : a.failure? = some f) :
    (∃ cause, f = .execution (.tool a.platform cause)) ∨ ∃ cause, f = .malformedOutput a.platform cause := by
  unfold failure? at h
  split at h
  · split at h
    · cases h
    · cases h
      exact .inr ⟨_, rfl⟩
  · cases h
    exact .inl ⟨_, rfl⟩

def into (t : Results) (a : Attempt) : Results := if a.accepted then t.after a.platform a.output else t

theorem foldl_into (as : List Attempt) (t : Results) :
    as.foldl into t = (as.filter accepted).foldl (fun t a => t.after a.platform a.output) t := by
  induction as generalizing t with
  | nil => rfl
  | cons a as ih =>
    rw [List.foldl_cons, ih, List.filter_cons]
    unfold into
    split <;> rfl

def verdict (a : Attempt) : Platform × Except Failure Unit :=
  (a.platform, match a.failure? with
    | none => .ok ()
    | some f => .error f)

def outcome (as : List Attempt) : Outcome :=
  .classify ((as.filter accepted).map platform) (as.filterMap failure?)

theorem outcomeOf_verdicts (as : List Attempt) : Run.outcomeOf (as.map verdict) = outcome as := by
  unfold Run.outcomeOf outcome
  congr 1
  · induction as with
    | nil => rfl
    | cons a as ih =>
      simp only [List.map_cons, List.filterMap_cons, List.filter_cons, ← a.failure?_isNone, ih]
      cases h : a.failure? <;> simp [verdict, h]
  · induction as with
    | nil => rfl
    | cons a as ih =>
      simp only [List.map_cons, List.filterMap_cons, ih]
      cases h : a.failure? <;> simp [verdict, h]

end Attempt

end TriBench
