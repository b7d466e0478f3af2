import Mathlib
import TriBench.Proofs.Discovery.Found
import TriBench.Proofs.Run.Agreement
import TriBench.Proofs.Tally.Counters

/-!
# The elements of a run

Every benchmark that no fault ends adds one element, under the name of its file, and nothing else
adds any. Main statement: `one_element_each`, which holds after each of the benchmarks.
-/

namespace TriBench

/-- What the element of a file is called. A file that is no benchmark goes by its path. -/
def Benchmark.title (c : Config) (p : Path) : Text :=
  match Benchmark.ofPath c p with
  | .ok b => b.name
  | .error _ => p.text

theorem Attempt.proper_outcome {as : List Attempt} (h : as ≠ []) : (Attempt.outcome as).Proper := by
  refine Outcome.proper_classify ?_
  obtain ⟨a, as, rfl⟩ := List.exists_cons_of_ne_nil h
  cases hf : a.failure? with
  | none =>
    left
    have ha : a.accepted = true := by rw [← a.failure?_isNone, hf]; rfl
    simp [ha]
  | some f =>
    right
    simp [hf]

namespace Run

section
variable {σ : Type} {st : Setting σ}

theorem Course.element {p : Path} {s : Session σ} {e : Element} {new : List Call} {as : List Attempt}
    (h : Course st p s (.ok e) new as) : e.name = Benchmark.title st.config p ∧ e.outcome.Proper := by
  unfold Benchmark.title
  cases h with
  | rejected h =>
    rw [h]
    exact ⟨rfl, Outcome.proper_skipped (List.cons_ne_nil _ _)⟩
  | buildFailed h hplan =>
    rw [h]
    exact ⟨rfl, Outcome.proper_skipped (List.cons_ne_nil _ _)⟩
  | finished h hplan has =>
    subst has
    rw [h]
    exact ⟨rfl, Attempt.proper_outcome (executable_of_planOf hplan).attempts_ne_nil⟩

/-- One benchmark more adds one element, unless a fault ends it, and of the element holds what holds
of all courses. -/
theorem benchmark_element_of {p : Path} {P : Element → Prop}
    (hP : ∀ s e new as, Course st p s (.ok e) new as → P e) (verbose : Bool) (g : Progress σ) :
    match (benchmark st verbose p).run.run g with
    | (.error _, g') => g'.tally = g.tally
    | (.ok (), g') => ∃ e : Element, g'.tally = g.tally.push e ∧ P e := by
  obtain ⟨printed, ending, new, as, hcourse, htaken⟩ := benchmark_course st verbose p g
  rcases hr : (benchmark st verbose p).run.run g with ⟨r, g'⟩
  rw [hr] at htaken
  obtain ⟨rfl, -, -, htally⟩ := htaken
  cases ending with
  | error f => exact htally
  | ok e => exact ⟨e, htally, hP _ e _ _ hcourse⟩

variable (st) in
theorem benchmark_element (verbose : Bool) (p : Path) (g : Progress σ) :
    match (benchmark st verbose p).run.run g with
    | (.error _, g') => g'.tally = g.tally
    | (.ok (), g') => ∃ e : Element, g'.tally = g.tally.push e ∧
      e.name = Benchmark.title st.config p ∧ e.outcome.Proper :=
  benchmark_element_of (fun _ _ _ _ hcourse => hcourse.element) verbose g

structure Recorded (c : Config) (before : Tally) (paths : List Path) (r : Except Fault Unit)
    (after : Tally) : Prop where
  sound : after.Sound
  elements : ∃ es : List Element, after.elements = before.elements ++ es ∧
    es.map Element.name <+: paths.map (Benchmark.title c) ∧
    (r = .ok () → es.map Element.name = paths.map (Benchmark.title c))

theorem recorded_nil {t : Tally} (h : t.Sound) (c : Config) (r : Except Fault Unit) (paths : List Path)
    (hr : r = .ok () → paths = []) :
    Recorded c t paths r t where
  sound := h
  elements := ⟨[], by simp, List.nil_prefix, fun hok => by rw [hr hok]; rfl⟩

theorem Recorded.cons {c : Config} {t t' : Tally} {e : Element} {p : Path} {paths : List Path}
    {r : Except Fault Unit} (he : e.name = Benchmark.title c p) (h : Recorded c (t.push e) paths r t') :
    Recorded c t (p :: paths) r t' := by
  obtain ⟨es, helements, hprefix, hall⟩ := h.elements
  refine ⟨h.sound, e :: es, ?_, ?_, fun hr => ?_⟩
  · rw [helements, Tally.elements_push, List.append_assoc, List.singleton_append]
  · rw [List.map_cons, List.map_cons, he]
    exact List.cons_prefix_cons.2 ⟨rfl, hprefix⟩
  · rw [List.map_cons, List.map_cons, he, hall hr]

variable (st) in
theorem benchmarks_recorded (verbose : Bool) (paths : List Path) {g : Progress σ} (h : g.tally.Sound) :
    Recorded st.config g.tally paths ((benchmarks st verbose paths).run.run g).1
      ((benchmarks st verbose paths).run.run g).2.tally := by
  induction paths generalizing g with
  | nil => exact recorded_nil h _ _ _ fun _ => rfl
  | cons p paths ih =>
    unfold benchmarks
    rw [run_bind]
    have hp := benchmark_element st verbose p g
    rcases hr : (benchmark st verbose p).run.run g with ⟨f | ⟨⟩, g'⟩ <;> rw [hr] at hp <;> dsimp only at hp ⊢
    · rw [hp]
      exact recorded_nil h _ _ _ fun hok => by cases hok
    · obtain ⟨e, htally, hname, hproper⟩ := hp
      have hsound : g'.tally.Sound := by rw [htally]; exact h.push hproper
      exact .cons hname (htally ▸ ih hsound)

variable (st) in
theorem benchmarks_append (verbose : Bool) (done rest : List Path) :
    benchmarks st verbose (done ++ rest) = (do
      benchmarks st verbose done
      benchmarks st verbose rest) := by
  induction done with
  | nil => rfl
  | cons p done ih => rw [List.cons_append, benchmarks, benchmarks, ih, bind_assoc]

variable (st) in
theorem opened_recorded (verbose : Bool) (line : Text) (paths : List Path) {g : Progress σ}
    (h : g.tally.Sound) :
    let run := (do
      print st line
      benchmarks st verbose paths : Running σ Unit).run.run g
    Recorded st.config g.tally paths run.1 run.2.tally := by
  dsimp only
  obtain ⟨printed, hp⟩ := run_print st line g
  have hbenchmarks := benchmarks_recorded st verbose paths (g := { g with session.printed := printed }) h
  rw [run_bind, hp]
  exact hbenchmarks

variable (st) in
/-- A run is never refused: it prints a line and runs the benchmarks that it finds. -/
theorem run_all (verbose : Bool) (prefixes : List Text) (g : Progress σ) :
    ∃ paths line, Discovery.discover g.session.files st.config prefixes = .ok paths ∧
      (all st verbose prefixes).run.run g = (do
        print st line
        benchmarks st verbose paths
        pure (.ok ()) : Running σ (Except Glob.PatternError Unit)).run.run g := by
  obtain ⟨paths, hpaths, -⟩ := Discovery.discover_eq_ok g.session.files st.config prefixes
  unfold all
  rw [run_bind, run_get]
  dsimp only
  rw [hpaths]
  exact ⟨paths, _, rfl, rfl⟩

variable (st) in
theorem all_recorded (verbose : Bool) (prefixes : List Text) {g : Progress σ} (h : g.tally.Sound) :
    let run := (all st verbose prefixes).run.run g
    ∃ paths, Discovery.discover g.session.files st.config prefixes = .ok paths ∧
      Recorded st.config g.tally paths (run.1.map fun _ => ()) run.2.tally := by
  obtain ⟨paths, line, hpaths, hall⟩ := run_all st verbose prefixes g
  have hopened := opened_recorded st verbose line paths h
  dsimp only at hopened ⊢
  refine ⟨paths, hpaths, ?_⟩
  rw [hall, ← bind_assoc, run_bind]
  rcases hr : (do
    print st line
    benchmarks st verbose paths : Running σ Unit).run.run g with ⟨f | ⟨⟩, g'⟩ <;>
      rw [hr] at hopened <;> exact hopened

end

/-- **One element for each benchmark.** A run prints a line, and then one benchmark after another
adds its element, in the order in which they were found and under its title, until a fault ends the
run. After each of them all counters are what a recount of the elements gives, and every outcome
shows what its grade asks for. -/
theorem one_element_each {σ : Type} (st : Setting σ) (verbose : Bool) (prefixes : List Text) (g : Progress σ)
    (hg : g.tally.Sound) :
    let run := (all st verbose prefixes).run.run g
    ∃ paths line, Discovery.discover g.session.files st.config prefixes = .ok paths ∧
      Recorded st.config g.tally paths (run.1.map fun _ => ()) run.2.tally ∧
      ∀ done rest, paths = done ++ rest →
        run = (do
          print st line
          benchmarks st verbose done
          benchmarks st verbose rest
          pure (.ok ()) : Running σ (Except Glob.PatternError Unit)).run.run g ∧
        let before := (do
          print st line
          benchmarks st verbose done : Running σ Unit).run.run g
        Recorded st.config g.tally done before.1 before.2.tally := by
  obtain ⟨paths, line, hpaths, hall⟩ := run_all st verbose prefixes g
  obtain ⟨paths', hpaths', hrecorded⟩ := all_recorded st verbose prefixes hg
  rw [hpaths] at hpaths'
  cases hpaths'
  refine ⟨paths, line, hpaths, hrecorded, ?_⟩
  rintro done rest rfl
  refine ⟨?_, opened_recorded st verbose line done hg⟩
  rw [hall, benchmarks_append, bind_assoc]

def mixed : FileSystem :=
  .ofNodes ["w"] [(["w"], .directory), (["w", "tests"], .directory),
    (["w", "tests", "benchmarks"], .directory), (["w", "tests", "benchmarks", "a..grate"], .file [] false),
    (["w", "tests", "benchmarks", "a.c"], .file [] false)]

theorem one_element_each_mixed :
    let st := Setting.obliging {}
    let g : Progress Unit := { session := { files := mixed, tools := () } }
    let run := (all st false []).run.run g
    g.tally.Sound ∧
      Discovery.discover mixed st.config [] = .ok ["tests/benchmarks/a..grate", "tests/benchmarks/a.c"] ∧
      ∃ paths line, Discovery.discover g.session.files st.config [] = .ok paths ∧
        Recorded st.config g.tally paths (run.1.map fun _ => ()) run.2.tally ∧
        ∀ done rest, paths = done ++ rest →
          run = (do
            print st line
            benchmarks st false done
            benchmarks st false rest
            pure (.ok ()) : Running Unit (Except Glob.PatternError Unit)).run.run g ∧
          let before := (do
            print st line
            benchmarks st false done : Running Unit Unit).run.run g
          Recorded st.config g.tally done before.1 before.2.tally := by
  have hpaths : Discovery.discover mixed {} [] =
      .ok ["tests/benchmarks/a..grate", "tests/benchmarks/a.c"] := by cbv
  exact ⟨Tally.sound_empty, hpaths,
    one_element_each (Setting.obliging {}) false []
      { session := { files := mixed, tools := () } } Tally.sound_empty⟩

end Run

end TriBench
