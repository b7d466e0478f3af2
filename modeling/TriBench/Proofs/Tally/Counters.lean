import TriBench.Tally

/-!
# Counters and elements

The counters of a tally are kept apart from its elements. Here it is shown that they count them:
outcomes by their grade, and failures by their kind. Main statement: `Sound.push`.
-/

namespace TriBench

inductive Outcome.Grade
  | measured
  | partly
  | skipped
  deriving DecidableEq

namespace Outcome

def grade : Outcome → Grade
  | measured _ => .measured
  | partly .. => .partly
  | skipped _ => .skipped

def Proper (o : Outcome) : Prop :=
  match o.grade with
  | .measured => o.platforms ≠ [] ∧ o.failures = []
  | .partly => o.platforms ≠ [] ∧ o.failures ≠ []
  | .skipped => o.platforms = [] ∧ o.failures ≠ []

theorem proper_skipped {fs : List Failure} (h : fs ≠ []) : (skipped fs).Proper := ⟨rfl, h⟩

/-- An outcome of nothing at all would count as measured. -/
theorem proper_classify {ps : List Platform} {fs : List Failure} (h : ps ≠ [] ∨ fs ≠ []) :
    (classify ps fs).Proper := by
  unfold classify
  by_cases hf : fs = []
  · have hp : ps ≠ [] := h.resolve_right (absurd hf)
    rw [if_pos hf]
    exact ⟨hp, rfl⟩
  · rw [if_neg hf]
    by_cases hp : ps = []
    · rw [if_pos hp]
      exact proper_skipped hf
    · rw [if_neg hp]
      exact ⟨hp, hf⟩

end Outcome

namespace Tally

def count (t : Tally) : Outcome.Grade → Nat
  | .measured => t.measured
  | .partly => t.partly
  | .skipped => t.skipped

def gradeCount (g : Outcome.Grade) (es : List Element) : Nat := es.countP fun e => e.outcome.grade = g

def failureCount (k : Failure.Kind) (es : List Element) : Nat :=
  (es.flatMap fun e => e.outcome.failures).countP fun f => f.kind = k

theorem sum_gradeCount (es : List Element) :
    gradeCount .measured es + gradeCount .partly es + gradeCount .skipped es = es.length := by
  induction es with
  | nil => rfl
  | cons e es ih =>
    unfold gradeCount at ih ⊢
    rw [List.countP_cons, List.countP_cons, List.countP_cons, List.length_cons]
    cases e.outcome.grade <;> simp <;> omega

/-! ## What a push changes -/

theorem failures_countFailure (t : Tally) (k k' : Failure.Kind) :
    (t.countFailure k').failures k = t.failures k + if k' = k then 1 else 0 := by
  cases k <;> cases k' <;> rfl

theorem count_countFailure (t : Tally) (k : Failure.Kind) (g : Outcome.Grade) :
    (t.countFailure k).count g = t.count g := by
  cases k <;> rfl

theorem failures_countOutcome (t : Tally) (o : Outcome) (k : Failure.Kind) :
    (t.countOutcome o).failures k = t.failures k := by
  cases o <;> rfl

theorem count_countOutcome (t : Tally) (o : Outcome) (g : Outcome.Grade) :
    (t.countOutcome o).count g = t.count g + if o.grade = g then 1 else 0 := by
  cases o <;> cases g <;> rfl

theorem elements_foldl (fs : List Failure) (t : Tally) :
    (fs.foldl (fun t f => t.countFailure f.kind) t).elements = t.elements := by
  induction fs generalizing t with
  | nil => rfl
  | cons f fs ih =>
    rw [List.foldl_cons, ih]
    cases f.kind <;> rfl

theorem count_foldl (fs : List Failure) (t : Tally) (g : Outcome.Grade) :
    (fs.foldl (fun t f => t.countFailure f.kind) t).count g = t.count g := by
  induction fs generalizing t with
  | nil => rfl
  | cons f fs ih => rw [List.foldl_cons, ih, count_countFailure]

theorem failures_foldl (fs : List Failure) (t : Tally) (k : Failure.Kind) :
    (fs.foldl (fun t f => t.countFailure f.kind) t).failures k =
      t.failures k + fs.countP fun f => f.kind = k := by
  induction fs generalizing t with
  | nil => rfl
  | cons f fs ih =>
    rw [List.foldl_cons, ih, failures_countFailure, List.countP_cons]
    simp only [decide_eq_true_eq]
    omega

variable (t : Tally) (e : Element)

theorem elements_push : (t.push e).elements = t.elements ++ [e] := by
  have houtcome : (t.countOutcome e.outcome).elements = t.elements := by cases e.outcome <;> rfl
  have h := elements_foldl e.outcome.failures (t.countOutcome e.outcome)
  rw [houtcome] at h
  exact congrArg (· ++ [e]) h

theorem count_push (g : Outcome.Grade) :
    (t.push e).count g = t.count g + if e.outcome.grade = g then 1 else 0 := by
  have h := count_foldl e.outcome.failures (t.countOutcome e.outcome) g
  rw [count_countOutcome] at h
  cases g <;> exact h

theorem failures_push (k : Failure.Kind) :
    (t.push e).failures k = t.failures k + e.outcome.failures.countP fun f => f.kind = k := by
  have h := failures_foldl e.outcome.failures (t.countOutcome e.outcome) k
  rw [failures_countOutcome] at h
  cases k <;> exact h

/-! ## The recount -/

/-- Every counter is what a recount of the elements gives, and every outcome shows what its grade asks for. -/
structure Sound (t : Tally) : Prop where
  outcomes : ∀ g, t.count g = gradeCount g t.elements
  failures : ∀ k, t.failures k = failureCount k t.elements
  total : t.measured + t.partly + t.skipped = t.elements.length
  proper : ∀ e ∈ t.elements, e.outcome.Proper

variable {t e}

theorem total_of_outcomes (h : ∀ g, t.count g = gradeCount g t.elements) :
    t.measured + t.partly + t.skipped = t.elements.length := by
  have hm : t.measured = gradeCount .measured t.elements := h .measured
  have hp : t.partly = gradeCount .partly t.elements := h .partly
  have hs : t.skipped = gradeCount .skipped t.elements := h .skipped
  rw [hm, hp, hs, sum_gradeCount]

theorem sound_empty : ({} : Tally).Sound where
  outcomes g := by cases g <;> rfl
  failures k := by cases k <;> rfl
  total := rfl
  proper := by simp

theorem Sound.push (h : t.Sound) (he : e.outcome.Proper) : (t.push e).Sound := by
  have houtcomes : ∀ g, (t.push e).count g = gradeCount g (t.push e).elements := by
    intro g
    rw [count_push, h.outcomes, elements_push]
    unfold gradeCount
    rw [List.countP_append, List.countP_singleton]
    simp only [decide_eq_true_eq]
  refine ⟨houtcomes, fun k => ?_, total_of_outcomes houtcomes, fun e' he' => ?_⟩
  · rw [failures_push, h.failures, elements_push]
    unfold failureCount
    rw [List.flatMap_append, List.countP_append, List.flatMap_singleton]
  · rw [elements_push] at he'
    rcases List.mem_append.1 he' with he' | he'
    · exact h.proper e' he'
    · rw [List.mem_singleton.1 he']
      exact he

end Tally

end TriBench
