import TriBench.Proofs.Run.Course

/-!
# Outcome and results agree

The outcome of a benchmark and the results are updated apart from each other. Here it is shown that
they tell the same of every attempt: a platform is listed iff its output has been taken in, and what
is not listed has left a failure behind and nothing in the results.
-/

namespace TriBench

section
variable {σ : Type}

namespace Attempt

theorem accepted_iff (a : Attempt) (t : Results) :
    a.accepted = true ↔
      ∃ o t' n, a.answer = .ok o ∧ t.absorb a.platform (Utf8.decode o.stdout) = .ok (t', n) := by
  unfold accepted
  cases a.answer with
  | error e => simp
  | ok o =>
    dsimp only
    cases h : Sample.parseBatch (Utf8.decode o.stdout) with
    | error e => simp [Results.absorb_of_error t a.platform h, Except.isOk, Except.toBool]
    | ok ss => simp [Results.absorb_of_ok t a.platform h, Except.isOk, Except.toBool]

theorem platforms_outcome (as : List Attempt) :
    (outcome as).platforms = (as.filter accepted).map platform := by
  unfold outcome Outcome.classify
  split
  · rfl
  · split
    · rename_i h; exact h.symm
    · rfl

theorem failures_outcome (as : List Attempt) : (outcome as).failures = as.filterMap failure? := by
  unfold outcome Outcome.classify
  split
  · rename_i h; exact h.symm
  · split <;> rfl

theorem not_accepted_of_skipped {as : List Attempt} {fs : List Failure} (h : outcome as = .skipped fs) :
    as.filter accepted = [] := by
  have hp := platforms_outcome as
  rw [h] at hp
  exact List.map_eq_nil_iff.1 hp.symm

theorem map_failure?_eq (as : List Attempt) :
    (as.filter (!·.accepted)).map failure? = (as.filterMap failure?).map some := by
  induction as with
  | nil => rfl
  | cons a as ih =>
    rw [List.filter_cons, List.filterMap_cons, ← a.failure?_isNone]
    cases h : a.failure? with
    | none => simpa using ih
    | some f => simpa [h] using ih

theorem columnAt_foldl {p : Platform} {as : List Attempt} (hp : ∀ a ∈ as, a.platform ≠ p) (t : Results)
    (test : Text) (param : Int) :
    (as.foldl (fun t a => t.after a.platform a.output) t).columnAt test param p =
      t.columnAt test param p := by
  induction as generalizing t with
  | nil => rfl
  | cons a as ih =>
    rw [List.foldl_cons, ih fun b hb => hp b (List.mem_cons_of_mem a hb),
      Results.columnAt_after test param (hp a (List.mem_cons_self ..)).symm]

theorem isSome_record?_foldl {t : Results} {test : Text} {param : Int}
    (h : (t.record? test param).isSome)
    (as : List Attempt) :
    ((as.foldl (fun t a => t.after a.platform a.output) t).record? test param).isSome := by
  induction as generalizing t with
  | nil => exact h
  | cons a as ih => exact ih (Results.isSome_record?_after test param h a.output)

end Attempt

namespace Run

/-- What the outcome of a benchmark and the change of the results say of the attempts. -/
structure Agreement (before after : Results) (as : List Attempt) (o : Outcome) : Prop where
  /-- The accepted attempts are those that succeed and that the results take in, whatever is in them. -/
  accepted : ∀ a ∈ as, ∀ t : Results, a.accepted = true ↔
    ∃ output t' n, a.answer = .ok output ∧ t.absorb a.platform (Utf8.decode output.stdout) = .ok (t', n)
  listed : o.platforms = (as.filter Attempt.accepted).map Attempt.platform
  absorbed : after = (as.filter Attempt.accepted).foldl (fun t a => t.after a.platform a.output) before
  /-- Every attempt that is not listed has one failure, in the order of the attempts. -/
  failures : as ≠ [] → (as.filter (!·.accepted)).map Attempt.failure? = o.failures.map some
  unattempted : as = [] → ∃ f, o = .skipped [f]
  columns : ∀ p, p ∉ o.platforms → ∀ test param, after.columnAt test param p = before.columnAt test param p
  kept : ∀ test param, (before.record? test param).isSome → (after.record? test param).isSome
  skipped : ∀ fs, o = .skipped fs → after = before

theorem agreement_of_no_attempt (t : Results) (f : Failure) : Agreement t t [] (.skipped [f]) where
  accepted := by simp
  listed := rfl
  absorbed := rfl
  failures h := absurd rfl h
  unattempted _ := ⟨f, rfl⟩
  columns _ _ _ _ := rfl
  kept _ _ h := h
  skipped _ _ := rfl

theorem agreement_of_attempts {as : List Attempt} (has : as ≠ []) (t : Results) :
    Agreement t (as.foldl Attempt.into t) as (Attempt.outcome as) where
  accepted a _ := a.accepted_iff
  listed := Attempt.platforms_outcome as
  absorbed := Attempt.foldl_into as t
  failures _ := by rw [Attempt.map_failure?_eq, Attempt.failures_outcome]
  unattempted h := absurd h has
  columns p hp test param := by
    rw [Attempt.platforms_outcome] at hp
    rw [Attempt.foldl_into]
    refine Attempt.columnAt_foldl (fun a ha => ?_) t test param
    rintro rfl
    exact hp (List.mem_map_of_mem ha)
  kept test param h := by
    rw [Attempt.foldl_into]
    exact Attempt.isSome_record?_foldl h _
  skipped fs h := by rw [Attempt.foldl_into, Attempt.not_accepted_of_skipped h]; rfl

/-- The attempts of a benchmark: none, or one for each platform of its kind in order, natively on the
platform of native programs and in the sandbox on all others. -/
structure Attempted (st : Setting σ) (p : Path) (as : List Attempt) : Prop where
  platforms : as ≠ [] → ∃ b, Benchmark.ofPath st.config p = .ok b ∧ as.map Attempt.platform = b.kind.platforms
  executes : ∀ a ∈ as, a.command.Executes
  privileged : ∀ a ∈ as, (a.command.privileged = true ↔ a.platform ≠ .linux)

variable {st : Setting σ}

theorem attempted_nil (p : Path) : Attempted st p [] := ⟨fun h => absurd rfl h, by simp, by simp⟩

theorem attempted_of_plan {p : Path} {b : Benchmark} {as : List Attempt}
    (hb : Benchmark.ofPath st.config p = .ok b)
    (hplan : Executable b (as.map Attempt.target)) : Attempted st p as := by
  have hmem : ∀ a ∈ as, a.target ∈ as.map Attempt.target := fun a ha => List.mem_map_of_mem ha
  refine ⟨fun _ => ⟨b, hb, ?_⟩, fun a ha => hplan.executes _ (hmem a ha),
    fun a ha => hplan.privileged _ (hmem a ha)⟩
  rw [← hplan.platforms, List.map_map]
  rfl

theorem Executable.attempts_ne_nil {b : Benchmark} {as : List Attempt}
    (h : Executable b (as.map Attempt.target)) :
    as ≠ [] := by
  rintro rfl
  have hp := h.platforms
  cases hk : b.kind <;> rw [hk] at hp <;> cases hp

/-- **Outcome and results.** A benchmark that no fault ends adds one element to the tally. Its outcome
lists the platforms of the accepted attempts, whose outputs are what the results have gained, in
order; all other attempts have one failure each, and the columns of platforms that are not listed are
as before, as is everything after a benchmark that was skipped. -/
theorem outcome_agrees_with_results (st : Setting σ) (verbose : Bool) (p : Path) (g : Progress σ) :
    ∃ (builds : List Call) (as : List Attempt),
      ((benchmark st verbose p).run.run g).2.session.calls =
        g.session.calls ++ builds ++ as.map Attempt.call ∧
      (∀ c ∈ builds, ¬ c.command.Executes) ∧
      match (benchmark st verbose p).run.run g with
      | (.error f, g') => st.CanMeet f ∧ g'.tally = g.tally
      | (.ok (), g') => Attempted st p as ∧ ∃ e : Element,
          g'.tally = g.tally.push e ∧ Agreement g.results g'.results as e.outcome := by
  obtain ⟨printed, ending, new, as, hcourse, htaken⟩ := benchmark_course st verbose p g
  rcases hr : (benchmark st verbose p).run.run g with ⟨r, g'⟩
  rw [hr] at htaken
  obtain ⟨rfl, hcalls, hresults, htally⟩ := htaken
  refine ⟨new, as, hcalls, hcourse.prepares, ?_⟩
  dsimp only at hresults htally
  cases hcourse with
  | rejected h =>
    exact ⟨attempted_nil p, _, htally, by rw [hresults]; exact agreement_of_no_attempt g.results _⟩
  | buildFault _ hplan => exact ⟨((planOf_prepares st _ _).of_ends hplan).1.canMeet, htally⟩
  | buildFailed _ hplan =>
    exact ⟨attempted_nil p, _, htally, by rw [hresults]; exact agreement_of_no_attempt g.results _⟩
  | fault _ _ hf => exact ⟨hf, htally⟩
  | finished h hplan has =>
    subst has
    have hexecutable := executable_of_planOf hplan
    refine ⟨attempted_of_plan h hexecutable, _, htally, ?_⟩
    rw [hresults]
    exact agreement_of_attempts hexecutable.attempts_ne_nil g.results

end Run

end

end TriBench
