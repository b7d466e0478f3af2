import Mathlib
import TriBench.Proofs.Build.Confinement
import TriBench.Proofs.Build.Failures
import TriBench.Proofs.Run.Elements

/-!
# What a benchmark that was found can fail with

Discovery, definition and build look at a path one after another, each by rules of its own, and
agree on it. Main statement: `found_benchmarks_fail_only`, all failures that are left to a file that
has been found.
-/

namespace TriBench

namespace Run

section
variable {σ : Type} (st : Setting σ)

/-- The failures that are left to a file. It may name an empty part; everything else is a failure of
its build, of a command, or of what a command has written. -/
inductive CanFail (p : Path) : Failure → Prop
  | emptyPart (h : Benchmark.ofPath st.config p = .error (.emptyPart p)) :
    CanFail p (.ofBuild (.definition (.emptyPart p)))
  | build {b : Benchmark} (h : Benchmark.ofPath st.config p = .ok b) {e : BuildError}
    (he : Build.CanFail st b e) :
    CanFail p (.ofBuild e)
  | execution {b : Benchmark} (h : Benchmark.ofPath st.config p = .ok b) {platform : Platform}
    (hplatform : platform ∈ b.kind.platforms) (cause : ToolFailure) :
    CanFail p (.execution (.tool platform cause))
  | malformedOutput {b : Benchmark} (h : Benchmark.ofPath st.config p = .ok b) {platform : Platform}
    (hplatform : platform ∈ b.kind.platforms) (cause : BatchError) :
    CanFail p (.malformedOutput platform cause)

/-- A file that builds have no objections to: it is a benchmark but for an empty part, and lies in
the benchmark directory. -/
structure Eligible (p : Path) : Prop where
  refused : ∀ e, Benchmark.ofPath st.config p = .error e → e = .emptyPart p
  inside : ∃ rel, p.stripPrefix? st.config.benchmarkDirectory = some rel

variable {st} {p : Path}

theorem eligible_of_found (hc : st.config.benchmarkDirectory.isAbsolute = true) {start : Text} {q : Path}
    {n : Text} (hfound : Discovery.Found st.config start p q n)
    (hrecognized : Discovery.isRecognized st.config p = true) :
    Eligible st p where
  refused _ he := Benchmark.emptyPart_of_recognized hrecognized hfound.fileName?_eq he
  inside := by
    obtain ⟨u, hstrip, -⟩ := hfound.exists_stripPrefix? hc
    exact ⟨_, hstrip⟩

section
variable (h : Eligible st p)
include h

theorem planOf_failsOnly {b : Benchmark} (hb : Benchmark.ofPath st.config p = .ok b) :
    (planOf st b).FailsOnly (Build.CanFail st b) := by
  unfold planOf
  cases hk : b.kind with
  | simple =>
    obtain ⟨rel, hrel⟩ := h.inside
    rw [← Benchmark.path_of_ofPath hb] at hrel
    exact (Build.both_failsOnly hk hrel).bind fun _ => .pure _
  | composite => exact (Build.parts_failsOnly hb hk).bind fun _ => .pure _

/-- Attempts follow a plan, which names the platforms of the benchmark and leaves nothing to a boot
without modules. -/
theorem Course.canFail {s : Session σ} {e : Element} {new : List Call} {as : List Attempt}
    (hcourse : Course st p s (.ok e) new as) : ∀ f ∈ e.outcome.failures, CanFail st p f := by
  intro f hf
  cases hcourse with
  | rejected he =>
    cases h.refused _ he
    rw [List.mem_singleton.1 hf]
    exact .emptyPart he
  | buildFailed hb hplan =>
    rw [List.mem_singleton.1 hf]
    exact .build hb (planOf_failsOnly h hb _ _ hplan.1)
  | finished hb hplan has =>
    rw [Attempt.failures_outcome] at hf
    obtain ⟨a, ha, hfailure⟩ := List.mem_filterMap.1 hf
    have hplatform := (executable_of_planOf hplan).platforms
    rw [← has, List.map_map] at hplatform
    have hmem : a.platform ∈ _ := hplatform ▸ List.mem_map_of_mem ha
    rcases Attempt.failure?_cases hfailure with ⟨cause, rfl⟩ | ⟨cause, rfl⟩
    · exact .execution hb hmem cause
    · exact .malformedOutput hb hmem cause

end

end

/-- **What a benchmark that was found can fail with.** A file that a discovery has found is refused
for an empty part and for nothing else. It is never built as one of the other kind and never booted
without modules, its source is never outside, and with dots for delimiters neither are its parts,
all of which have names. -/
theorem found_benchmarks_fail_only {σ : Type} (st : Setting σ) (given : Config) (working : Path)
    (hworking : working.isAbsolute = true) (hconfig : given.resolve working = .ok st.config) (fs : FileSystem)
    (hfs : fs.WellNamed) (prefixes : List Text) (paths : List Path)
    (hpaths : Discovery.discover fs st.config prefixes = .ok paths) :
    ∀ p ∈ paths, (∀ e, Benchmark.ofPath st.config p = .error e → e = .emptyPart p) ∧
      ∀ (verbose : Bool) (g : Progress σ), ∃ es : List Element,
        ((benchmark st verbose p).run.run g).2.tally.elements = g.tally.elements ++ es ∧
          ∀ e ∈ es, ∀ f ∈ e.outcome.failures, CanFail st p f := by
  intro p hp
  obtain ⟨hc, -⟩ := Config.isAbsolute_of_resolve hworking hconfig
  obtain ⟨hrecognized, start, -, q, n, hfound⟩ := Discovery.found_of_mem hfs hc hpaths hp
  have heligible := eligible_of_found hc hfound hrecognized
  refine ⟨heligible.refused, fun verbose g => ?_⟩
  have helement := benchmark_element_of (fun _ _ _ _ hcourse => Course.canFail heligible hcourse) verbose g
  rcases hr : (benchmark st verbose p).run.run g with ⟨f | ⟨⟩, g'⟩ <;> rw [hr] at helement <;>
    dsimp only at helement ⊢
  · exact ⟨[], by rw [helement, List.append_nil], by simp⟩
  · obtain ⟨e, htally, hfailures⟩ := helement
    exact ⟨[e], by rw [htally, Tally.elements_push], by simpa using hfailures⟩

theorem found_benchmarks_fail_only_mixed :
    let st := Setting.obliging Build.inWork
    let paths : List Path := ["/w/tests/benchmarks/a..grate", "/w/tests/benchmarks/a.c"]
    ("/w" : Path).isAbsolute = true ∧ Config.resolve "/w" {} = .ok st.config ∧ mixed.WellNamed ∧
      Discovery.discover mixed st.config [] = .ok paths ∧
      ∀ p ∈ paths, (∀ e, Benchmark.ofPath st.config p = .error e → e = .emptyPart p) ∧
        ∀ (verbose : Bool) (g : Progress Unit), ∃ es : List Element,
          ((benchmark st verbose p).run.run g).2.tally.elements = g.tally.elements ++ es ∧
            ∀ e ∈ es, ∀ f ∈ e.outcome.failures, CanFail st p f := by
  intro st paths
  have hfs : mixed.WellNamed := by decide
  have hpaths : Discovery.discover mixed Build.inWork [] = .ok paths := by cbv
  exact ⟨rfl, Build.resolve_inWork, hfs, hpaths,
    found_benchmarks_fail_only st {} "/w" rfl Build.resolve_inWork mixed hfs [] paths hpaths⟩

end Run

end TriBench
