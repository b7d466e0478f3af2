import TriBench.Proofs.Build.Commands
import TriBench.Proofs.Run.Attempts

/-!
# Steps of a run

What each step of a run does to the session, the results and the tally. A measurement is one attempt,
unless a fault comes before its command; measurements one after another follow a plan of what is to
be executed for which platform.
-/

namespace TriBench

section
variable {σ ε α β : Type} (st : Setting σ)

/-! ## The run of a step -/

namespace Run

theorem run_bind (a : Running σ α) (f : α → Running σ β) (g : Progress σ) :
    (a >>= f).run.run g = match a.run.run g with
      | (.ok x, g') => (f x).run.run g'
      | (.error e, g') => (.error e, g') := by
  simp only [ExceptT.run_bind, StateT.run_bind]
  rcases (ExceptT.run a).run g with ⟨_ | x, g'⟩ <;> rfl

@[simp] theorem run_pure (x : α) (g : Progress σ) : (pure x : Running σ α).run.run g = (.ok x, g) := rfl

@[simp] theorem run_throw (f : Fault) (g : Progress σ) :
    (throw f : Running σ α).run.run g = (.error f, g) := rfl

@[simp] theorem run_get (g : Progress σ) : (get : Running σ (Progress σ)).run.run g = (.ok g, g) := rfl

@[simp] theorem run_set (g g' : Progress σ) : (set g' : Running σ PUnit).run.run g = (.ok ⟨⟩, g') := rfl

@[simp] theorem run_modify (h : Progress σ → Progress σ) (g : Progress σ) :
    (modify h : Running σ PUnit).run.run g = (.ok ⟨⟩, h g) := rfl

theorem run_attempt (a : Act σ ε α) (g : Progress σ) :
    (attempt a).run.run g = ((a.run g.session).1, { g with session := (a.run g.session).2 }) := by
  unfold attempt
  rw [run_bind, run_get]
  rcases h : a.run g.session with ⟨f | r, session⟩ <;>
    simp only [h, run_bind, run_set, run_throw, run_pure]

theorem run_print_eq (line : Text) (g : Progress σ) :
    (print st line).run.run g = (.ok (), { g with session := if st.quiet then g.session else
      { g.session with printed := g.session.printed ++ (line ++ ['\n']) } }) := by
  unfold print
  split
  · rfl
  · rw [← List.append_assoc]
    rfl

theorem run_print (line : Text) (g : Progress σ) :
    ∃ printed, (print st line).run.run g = (.ok (), { g with session.printed := printed }) := by
  rw [run_print_eq]
  split
  · exact ⟨g.session.printed, rfl⟩
  · exact ⟨_, rfl⟩

def lineOf (verbose : Bool) (e : Element) : Text :=
  match e.text st.colours verbose with
  | none => []
  | some text => text ++ ['\n']

theorem run_record_eq (verbose : Bool) (name : Text) (o : Outcome) (g : Progress σ) :
    (record st verbose name o).run.run g = (.ok (), { g with
      session := if st.quiet then g.session else
        { g.session with printed := g.session.printed ++ lineOf st verbose ⟨name, o⟩ }
      tally := g.tally.push ⟨name, o⟩ }) := by
  unfold record lineOf
  dsimp only
  cases h : Element.text st.colours verbose ⟨name, o⟩ with
  | none =>
    dsimp only
    rw [List.append_nil, ite_self]
    rfl
  | some text =>
    dsimp only
    rw [run_bind, run_print_eq]
    rfl

theorem run_record (verbose : Bool) (name : Text) (o : Outcome) (g : Progress σ) :
    ∃ printed, (record st verbose name o).run.run g =
      (.ok (), { g with session.printed := printed, tally := g.tally.push ⟨name, o⟩ }) := by
  rw [run_record_eq]
  split
  · exact ⟨g.session.printed, rfl⟩
  · exact ⟨_, rfl⟩

end Run

/-! ## Attempts in a run -/

structure Progress.After (g : Progress σ) (as : List Attempt) (g' : Progress σ) : Prop where
  calls : g'.session.calls = g.session.calls ++ as.map Attempt.call
  results : g'.results = as.foldl Attempt.into g.results
  tally : g'.tally = g.tally

theorem Progress.After.refl (g : Progress σ) : g.After [] g := ⟨by simp, rfl, rfl⟩

theorem Progress.After.trans {g g' g'' : Progress σ} {as bs : List Attempt} (h : g.After as g')
    (h' : g'.After bs g'') : g.After (as ++ bs) g'' where
  calls := by rw [h'.calls, h.calls, List.map_append, List.append_assoc]
  results := by rw [h'.results, h.results, List.foldl_append]
  tally := h'.tally.trans h.tally

namespace Run
variable {st}

theorem measure_cases {p : Platform} {c : Command} {execution : Act σ RunError Text}
    (h : execution.Logs (Act.Gives st c (Execution.outputOf p))) (g : Progress σ) :
    (∃ a : Attempt, a.target = (p, c) ∧ ∃ g',
      (measure p execution).run.run g = (.ok a.verdict, g') ∧ g.After [a] g') ∨
      ∃ f g', (measure p execution).run.run g = (.error f, g') ∧ st.CanMeet f ∧ g.After [] g' := by
  obtain ⟨new, hnew, hr⟩ := h g.session
  unfold measure
  rw [run_bind, run_attempt]
  rcases hr with ⟨answer, hr, rfl⟩ | ⟨f, hf, hr, rfl⟩
  · refine .inl ⟨⟨p, c, answer⟩, rfl, ?_⟩
    rw [hr]
    cases answer with
    | error e => exact ⟨_, rfl, hnew, rfl, rfl⟩
    | ok o =>
      simp only [Execution.outputOf_ok]
      rw [run_bind, run_get]
      cases hb : Sample.parseBatch (Utf8.decode o.stdout) with
      | error e =>
        simp only [Results.absorb_of_error _ _ hb, run_pure, Attempt.verdict, Attempt.failure?, hb]
        refine ⟨_, rfl, hnew, ?_, rfl⟩
        simp [Attempt.into, Attempt.accepted, hb, Except.isOk, Except.toBool]
      | ok ss =>
        simp only [Results.absorb_of_ok _ _ hb, run_bind, run_set, run_pure,
          Attempt.verdict, Attempt.failure?, hb]
        refine ⟨_, rfl, hnew, ?_, rfl⟩
        simp [Attempt.into, Attempt.accepted, Attempt.output, hb, Except.isOk,
          Except.toBool, Results.after_eq, Results.accepted_of_ok hb]
  · rw [hr]
    exact .inr ⟨f, _, rfl, hf, by simpa using hnew, rfl, rfl⟩

/-- A run after earlier attempts: more of them in the order of a plan, all unless a fault comes, and
the outcome of earlier and later ones. -/
def Executed (st : Setting σ) (earlier : List Attempt) (plan : List (Platform × Command))
    (g : Progress σ)
    (run : Except Fault Outcome × Progress σ) : Prop :=
  ∃ as, g.After as run.2 ∧
    (run.1 = .ok (Attempt.outcome (earlier ++ as)) ∧ as.map Attempt.target = plan ∨
      ∃ f, run.1 = .error f ∧ st.CanMeet f ∧ as.map Attempt.target <+: plan)

variable {earlier : List Attempt} {plan : List (Platform × Command)}

theorem executed_nil (g : Progress σ) :
    Executed st earlier [] g
      ((pure (outcomeOf (earlier.map Attempt.verdict)) : Running σ Outcome).run.run g) := by
  refine ⟨[], .refl g, .inl ⟨?_, rfl⟩⟩
  rw [run_pure, Attempt.outcomeOf_verdicts, List.append_nil]

theorem executed_cons {p : Platform} {c : Command} {execution : Act σ RunError Text}
    {k : Platform × Except Failure Unit → Running σ Outcome}
    (h : execution.Logs (Act.Gives st c (Execution.outputOf p)))
    (hk : ∀ a : Attempt, ∀ g, Executed st (earlier ++ [a]) plan g ((k a.verdict).run.run g))
    (g : Progress σ) :
    Executed st earlier ((p, c) :: plan) g ((measure p execution >>= k).run.run g) := by
  rw [run_bind]
  rcases measure_cases h g with ⟨a, ha, g', hr, hafter⟩ | ⟨f, g', hr, hf, hafter⟩
  · rw [hr]
    obtain ⟨as, has, hend⟩ := hk a g'
    refine ⟨a :: as, hafter.trans has, ?_⟩
    rcases hend with ⟨ho, hplan⟩ | ⟨f, ho, hf, hplan⟩
    · exact .inl ⟨by rw [ho, List.append_assoc]; rfl, by rw [List.map_cons, ha, hplan]⟩
    · exact .inr ⟨f, ho, hf, by rw [List.map_cons, ha]; exact List.cons_prefix_cons.2 ⟨rfl, hplan⟩⟩
  · rw [hr]
    exact ⟨[], hafter, .inr ⟨f, rfl, hf, List.nil_prefix⟩⟩

end Run

end

end TriBench
