import TriBench.Proofs.Build.Faults
import TriBench.Proofs.Run.Alike
import TriBench.Proofs.Run.Elements

/-!
# Faults of a run

A run has no faults but those of its steps, so without one it comes to the last of its benchmarks.
Main statement: `all_runs`.
-/

namespace TriBench.Run

section
variable {σ ε α β : Type} {st : Setting σ}

variable (st) in
def Risked (m : Running σ α) : Prop := ∀ g f, (m.run.run g).1 = .error f → st.Risks f

theorem risked_of_run {m : Running σ α} (h : ∀ g, ∃ x g', m.run.run g = (.ok x, g')) : Risked st m := by
  intro g f hf
  obtain ⟨x, g', hr⟩ := h g
  rw [hr] at hf
  cases hf

theorem risked_pure (x : α) : Risked st (pure x : Running σ α) := risked_of_run fun g => ⟨x, g, rfl⟩

theorem risked_bind {m : Running σ α} {k : α → Running σ β} (hm : Risked st m) (hk : ∀ x, Risked st (k x)) :
    Risked st (m >>= k) := by
  intro g f h
  rw [run_bind] at h
  rcases hr : m.run.run g with ⟨e | x, g'⟩ <;> rw [hr] at h
  · cases h
    exact hm g f (by rw [hr])
  · exact hk x g' f h

theorem Alike.risked {v : Setting.Variant σ} {b : Benchmark} {m m' : Running σ α} (h : Alike st v b m m') :
    Risked st m := by
  induction h with
  | pure x => exact risked_pure x
  | bind hm hk ihm ihk => exact risked_bind ihm ihk
  | attempt h hfailure hvalue ihfailure ihvalue =>
    intro g f hf
    rw [run_bind, run_attempt] at hf
    rcases hr : Act.run _ g.session with ⟨e | e | x, s⟩ <;> rw [hr] at hf
    · cases hf
      exact h.risked g.session f (by rw [hr])
    · exact ihfailure e _ f hf
    · exact ihvalue x (h.value (congrArg Prod.fst hr)) _ f hf
  | take p output =>
    apply risked_of_run
    intro g
    rw [run_take]
    cases Sample.parseBatch output with
    | error e => exact ⟨_, g, rfl⟩
    | ok samples => exact ⟨_, _, rfl⟩

theorem risked_record (verbose : Bool) (name : Text) (o : Outcome) :
    Risked st (record st verbose name o) := by
  apply risked_of_run
  intro g
  obtain ⟨printed, h⟩ := run_record st verbose name o g
  exact ⟨_, _, h⟩

theorem risked_print (line : Text) : Risked st (print st line) := by
  apply risked_of_run
  intro g
  obtain ⟨printed, h⟩ := run_print st line g
  exact ⟨_, _, h⟩

theorem risked_benchmarks (verbose : Bool) (paths : List Path) : Risked st (benchmarks st verbose paths) := by
  have hbenchmark : ∀ p, Risked st (benchmark st verbose p) := by
    intro p
    unfold benchmark
    split
    · exact risked_record verbose _ _
    · rename_i b hb
      have halike : Alike st ⟨st.quiet, st.toolbox⟩ b _ _ := execute_alike (Benchmark.parts_ne_nil hb)
      exact risked_bind (risked_print _) fun _ => risked_bind halike.risked fun o => risked_record verbose _ o
  induction paths with
  | nil => exact risked_pure _
  | cons p paths ih => exact risked_bind (hbenchmark p) fun _ => ih

variable (st) in
/-- A run meets a risk of its setting or comes to its end. -/
theorem all_runs (verbose : Bool) (prefixes : List Text) (g : Progress σ) :
    let run := (all st verbose prefixes).run.run g
    (∃ f, run.1 = .error f ∧ st.Risks f) ∨ run.1 = .ok (.ok ()) := by
  dsimp only
  obtain ⟨paths, line, -, hall⟩ := run_all st verbose prefixes g
  have hrisked : Risked st (do
      print st line
      benchmarks st verbose paths : Running σ Unit) :=
    risked_bind (risked_print line) fun _ => risked_benchmarks verbose paths
  rw [hall, ← bind_assoc, run_bind]
  rcases hr : (do
    print st line
    benchmarks st verbose paths : Running σ Unit).run.run g with ⟨f | ⟨⟩, g'⟩
  · exact .inl ⟨f, rfl, hrisked g f (by rw [hr])⟩
  · exact .inr rfl

end

end TriBench.Run
