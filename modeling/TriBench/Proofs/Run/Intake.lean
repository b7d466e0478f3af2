import TriBench.Proofs.Run.Steps
import TriBench.Proofs.Sample.Grammar

/-!
# Taking in an output

The output of an execution is read by its grammar, and one that is rejected leaves the results of
the run as they were. Main statement: `outputs_follow_grammar`.
-/

namespace TriBench.Run

variable {σ : Type}

/-- An output that is rejected changes nothing of a run but what the execution itself has changed in
the session. -/
theorem measure_of_rejected {p : Platform} {execution : Act σ RunError Text} {g : Progress σ} {s : Session σ}
    {output : Text} {e : BatchError} (hexecution : execution.run g.session = (.ok (.ok output), s))
    (h : Sample.parseBatch output = .error e) :
    (measure p execution).run.run g = (.ok (p, .error (.malformedOutput p e)), { g with session := s }) := by
  unfold measure
  rw [run_bind, run_attempt, hexecution]
  dsimp only
  rw [run_bind, run_get]
  dsimp only
  rw [Results.absorb_of_error _ _ h]
  rfl

/-- **How an output is read.** It is cut into lines, which may end with a carriage return and a line
feed. Those with three tabs count: if there is one and the parameters of all are integers of 64
bits, the samples are these lines in order, each with its four fields trimmed. Otherwise the first
parameter that is none is reported with the number of its line, or that there are no records among
so many lines. Nothing of a rejected output gets into the results. -/
theorem outputs_follow_grammar (output : Text) :
    (∀ r, Sample.parseBatch output = r ↔ ∃ lines, Text.Lined output lines ∧ Sample.Verdict lines r) ∧
      ((∃ ss, Sample.parseBatch output = .ok ss) ↔
        ∃ lines, Text.Lined output lines ∧ (∃ l ∈ lines, Sample.IsRow l) ∧
        ∀ l ∈ lines, ∀ test param loops average, Sample.HasFields l [test, param, loops, average] →
          ∃ i, Text.Signed param i ∧ Text.InInt64 i) ∧
      ∀ e, Sample.parseBatch output = .error e →
        (∀ (t : Results) (p : Platform), t.absorb p output = .error e) ∧
        ∀ (σ : Type) (p : Platform) (execution : Act σ RunError Text) (g : Progress σ) (s : Session σ),
          execution.run g.session = (.ok (.ok output), s) →
            (measure p execution).run.run g = (.ok (p, .error (.malformedOutput p e)),
              { g with session := s }) := by
  refine ⟨fun r => Sample.parseBatch_eq_iff, ?_, fun e he => ⟨fun t p => Results.absorb_of_error t p he, ?_⟩⟩
  · rw [Sample.exists_parseBatch_eq_ok_iff]
    constructor
    · intro h
      exact ⟨_, Text.lined_lines output, h⟩
    · rintro ⟨lines, hlines, h⟩
      rw [hlines.lines_eq]
      exact h
  · intro σ p execution g s hexecution
    exact measure_of_rejected hexecution he

/-- The number of a line counts those that are passed over, and a record before the first misfit is
not kept. -/
theorem outputs_follow_grammar_overflow :
    let output : Text := "noise\na\t1\t2\t3\r\nb\t +9223372036854775808\t\t"
    let e : BatchError := .param 3 "+9223372036854775808"
    Sample.parseBatch output = .error e ∧ ∀ (t : Results) (p : Platform), t.absorb p output = .error e := by
  intro output e
  have he : Sample.parseBatch output = .error e := by rfl
  exact ⟨he, ((outputs_follow_grammar output).2.2 e he).1⟩

end TriBench.Run
