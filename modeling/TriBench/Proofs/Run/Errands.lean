import Mathlib.Data.List.Forall2
import TriBench.Proofs.Build.Errands
import TriBench.Proofs.Run.Agreement
import TriBench.Proofs.Tally.Counters

/-!
# The errands of a benchmark

All commands of a benchmark are errands, those of its build and those of its attempts, and what
failed of them is in its element. Main statement: `tool_failures_recorded_once`.
-/

namespace TriBench

namespace Purpose

theorem failure_of_platform {u : Purpose} {p : Platform} (h : u.platform? = some p) (e : ToolFailure) :
    u.failure e = .execution (.tool p e) := by
  cases u <;> cases h <;> rfl

end Purpose

namespace Errand

def failed (x : Errand) : Bool := !x.answer.isOk

def RecordedAs (x : Errand) (f : Failure) : Prop :=
  ∃ e : ToolFailure, x.answer = .error e ∧ f.kind = x.purpose.kind ∧ f.tool? = some e ∧
    f.diagnostics = e.diagnostics

theorem recordedAs_failure {x : Errand} {e : ToolFailure} (h : x.answer = .error e) :
    x.RecordedAs (x.purpose.failure e) := by
  have htool := x.purpose.tool?_failure e
  refine ⟨e, h, x.purpose.kind_failure e, htool, ?_⟩
  unfold Failure.diagnostics
  rw [htool]
  rfl

theorem recorded_failed (xs : List Errand) :
    List.Forall₂ RecordedAs (xs.filter failed) (xs.filterMap failure?) := by
  induction xs with
  | nil => exact .nil
  | cons x xs ih =>
    cases h : x.answer with
    | error e => simpa [failed, failure?, h, Except.isOk, Except.toBool] using ⟨recordedAs_failure h, ih⟩
    | ok o => simpa [failed, failure?, h, Except.isOk, Except.toBool] using ih

theorem countP_of_recorded {xs : List Errand} {fs : List Failure} (h : List.Forall₂ RecordedAs xs fs)
    (k : Failure.Kind) :
    (fs.countP fun f => f.kind = k) = xs.countP fun x => x.purpose.kind = k := by
  induction h with
  | nil => rfl
  | cons hx _ ih =>
    obtain ⟨e, -, hkind, -⟩ := hx
    rw [List.countP_cons, List.countP_cons, ih, hkind]

end Errand

namespace Run

section
variable {σ : Type} {st : Setting σ} {b : Benchmark}

/-! ## Plans and attempts -/

def Planned (st : Setting σ) (b : Benchmark) (t : Platform × Command) : Prop :=
  ∃ u : Purpose, u.Serves st b ∧ u.platform? = some t.1 ∧ u.command st = t.2

theorem planOf_alike (v : Setting.Variant σ) (hb : b.parts ≠ []) : Act.Alike st v b Failure.ofBuild
    (fun plan => ∀ t ∈ plan, Planned st b t) (planOf st b) (planOf (st.vary v) b) := by
  unfold planOf
  cases b.kind with
  | simple =>
    refine Build.both_alike.bind fun built h => .pure ?_
    obtain ⟨hk, hprogram, hmodule⟩ := h
    simpa using ⟨⟨_, Build.serves_boot .lind hmodule, rfl, rfl⟩, ⟨_, .execution hk hprogram, rfl, rfl⟩⟩
  | composite =>
    refine (Build.parts_alike (List.Subset.refl b.parts)).bind fun artifacts h => .pure ?_
    simpa using ⟨_, Build.serves_boot_parts .grate hb h, rfl, rfl⟩

theorem failure?_of_platform {u : Purpose} {a : Attempt} (h : u.platform? = some a.platform) :
    Errand.failure? ⟨u, a.answer⟩ = a.failure?.filter fun f => f.tool?.isSome := by
  unfold Errand.failure? Attempt.failure?
  cases a.answer with
  | error e =>
    dsimp only
    rw [u.failure_of_platform h]
    rfl
  | ok o =>
    dsimp only
    cases Sample.parseBatch (Utf8.decode o.stdout) <;> rfl

theorem errands_of_attempts {as : List Attempt} (h : ∀ a ∈ as, Planned st b a.target) :
    ∃ xs : List Errand, as.map Attempt.call = xs.map (Errand.call st) ∧ (∀ x ∈ xs, x.purpose.Serves st b) ∧
      xs.filterMap Errand.failure? = (as.filterMap Attempt.failure?).filter fun f => f.tool?.isSome := by
  induction as with
  | nil => exact ⟨[], rfl, by simp, rfl⟩
  | cons a as ih =>
    obtain ⟨⟨u, hu, hplatform, hcommand⟩, has⟩ := List.forall_mem_cons.1 h
    obtain ⟨xs, hcalls, hserve, hfailed⟩ := ih has
    have hcall : a.call = Errand.call st ⟨u, a.answer⟩ := by
      unfold Errand.call Attempt.call
      rw [hcommand]
      rfl
    refine ⟨⟨u, a.answer⟩ :: xs, ?_, List.forall_mem_cons.2 ⟨hu, hserve⟩, ?_⟩
    · rw [List.map_cons, List.map_cons, hcalls, hcall]
    · rw [List.filterMap_cons, List.filterMap_cons, hfailed, failure?_of_platform hplatform]
      cases a.failure? with
      | none => rfl
      | some f => cases hf : f.tool?.isSome <;> simp [Option.filter, hf]

/-! ## From the file to the element -/

variable (st) in
/-- All commands of a benchmark are errands of it. -/
theorem benchmark_errands (verbose : Bool) (p : Path) (g : Progress σ) :
    ∃ xs : List Errand,
      ((benchmark st verbose p).run.run g).2.session.calls = g.session.calls ++ xs.map (Errand.call st) ∧
      (∀ x ∈ xs, ∃ b, Benchmark.ofPath st.config p = .ok b ∧ x.purpose.Serves st b) ∧
      match (benchmark st verbose p).run.run g with
      | (.error f, g') => st.CanMeet f ∧ g'.tally = g.tally
      | (.ok (), g') => ∃ e : Element, g'.tally = g.tally.push e ∧
          xs.filterMap Errand.failure? = e.outcome.failures.filter fun f => f.tool?.isSome := by
  obtain ⟨printed, ending, new, as, hcourse, htaken⟩ := benchmark_course st verbose p g
  rcases hr : (benchmark st verbose p).run.run g with ⟨r, g'⟩
  rw [hr] at htaken
  obtain ⟨rfl, hcalls, -, htally⟩ := htaken
  dsimp only at hcalls htally
  have hplanned : ∀ {b r new}, Benchmark.ofPath st.config p = .ok b →
      (planOf st b).Ends { g.session with printed } r new →
      ∃ xs, Ending.After st b Failure.ofBuild (fun plan => ∀ t ∈ plan, Planned st b t) r new xs :=
    fun h hends => ((planOf_alike ⟨st.quiet, st.toolbox⟩ (Benchmark.parts_ne_nil h)).errands _).of_ends hends
  have hattempts : ∀ {b plan new} {as : List Attempt}, Benchmark.ofPath st.config p = .ok b →
      (planOf st b).Ends { g.session with printed } (.ok (.ok plan)) new → as.map Attempt.target <+: plan →
      ∀ a ∈ as, Planned st b a.target := by
    intro b plan new as h hends hfollows a ha
    obtain ⟨xs, hxs⟩ := hplanned h hends
    exact hxs.value plan rfl _ (hfollows.subset (List.mem_map_of_mem ha))
  cases hcourse with
  | rejected h => exact ⟨[], by simpa using hcalls, by simp, _, htally, rfl⟩
  | @buildFault b f new h hplan =>
    obtain ⟨xs, hxs⟩ := hplanned h hplan
    refine ⟨xs, ?_, fun x hx => ⟨b, h, hxs.serve x hx⟩,
      ((planOf_prepares st _ _).of_ends hplan).1.canMeet, htally⟩
    rw [hcalls, hxs.calls, List.map_nil, List.append_nil]
  | @buildFailed b e new h hplan =>
    obtain ⟨xs, hxs⟩ := hplanned h hplan
    refine ⟨xs, ?_, fun x hx => ⟨b, h, hxs.serve x hx⟩, _, htally, hxs.failed⟩
    rw [hcalls, hxs.calls, List.map_nil, List.append_nil]
  | @fault b f plan new as h hplan hf has =>
    obtain ⟨xs, hxs⟩ := hplanned h hplan
    obtain ⟨ys, hys, hserve, -⟩ := errands_of_attempts (hattempts h hplan has)
    refine ⟨xs ++ ys, ?_, ?_, hf, htally⟩
    · rw [hcalls, hxs.calls, hys, List.map_append, List.append_assoc]
    · intro x hx
      rcases List.mem_append.1 hx with hx | hx
      · exact ⟨b, h, hxs.serve x hx⟩
      · exact ⟨b, h, hserve x hx⟩
  | @finished b plan new as h hplan has =>
    subst has
    obtain ⟨xs, hxs⟩ := hplanned h hplan
    obtain ⟨ys, hys, hserve, hfailed⟩ := errands_of_attempts (hattempts h hplan (List.prefix_refl _))
    refine ⟨xs ++ ys, ?_, ?_, _, htally, ?_⟩
    · rw [hcalls, hxs.calls, hys, List.map_append, List.append_assoc]
    · intro x hx
      rcases List.mem_append.1 hx with hx | hx
      · exact ⟨b, h, hxs.serve x hx⟩
      · exact ⟨b, h, hserve x hx⟩
    · -- the build has come to its plan, so nothing has failed in it
      rw [List.filterMap_append, hxs.failed, hfailed, Attempt.failures_outcome]
      rfl

end

/-- **Failed commands are recorded once.** The commands of a benchmark are errands for it. Unless a
fault ends the benchmark, those that have failed are in its element in their order, each as one
failure, of the kind of its purpose and with the diagnostics of its answer. All other failures come
from no command. The counters count them by kind. -/
theorem tool_failures_recorded_once {σ : Type} (st : Setting σ) (verbose : Bool) (p : Path) (g : Progress σ) :
    ∃ xs : List Errand,
      ((benchmark st verbose p).run.run g).2.session.calls = g.session.calls ++ xs.map (Errand.call st) ∧
      (∀ x ∈ xs, ∃ b, Benchmark.ofPath st.config p = .ok b ∧ x.purpose.Serves st b) ∧
      match (benchmark st verbose p).run.run g with
      | (.error f, g') => st.CanMeet f ∧ g'.tally = g.tally
      | (.ok (), g') => ∃ e : Element, g'.tally = g.tally.push e ∧
          List.Forall₂ Errand.RecordedAs (xs.filter Errand.failed)
            (e.outcome.failures.filter fun f => f.tool?.isSome) ∧
          ∀ k, g'.tally.failures k = g.tally.failures k +
            ((xs.filter Errand.failed).countP fun x => x.purpose.kind = k) +
            (e.outcome.failures.filter fun f => f.tool?.isNone).countP fun f => f.kind = k := by
  obtain ⟨xs, hcalls, hserve, hends⟩ := benchmark_errands st verbose p g
  refine ⟨xs, hcalls, hserve, ?_⟩
  rcases hr : (benchmark st verbose p).run.run g with ⟨f | ⟨⟩, g'⟩ <;> rw [hr] at hends
  · exact hends
  · obtain ⟨e, htally, hfailed⟩ := hends
    have hrecorded := Errand.recorded_failed xs
    rw [hfailed] at hrecorded
    refine ⟨e, htally, hrecorded, fun k => ?_⟩
    have hsplit :=
      e.outcome.failures.countP_eq_countP_filter_add (fun f => f.kind = k) fun f => f.tool?.isSome
    simp only [Option.not_isSome] at hsplit
    rw [htally, Tally.failures_push, hsplit, Errand.countP_of_recorded hrecorded]
    omega

end Run

end TriBench
