import TriBench.Proofs.Build.Bounds
import TriBench.Proofs.Build.Confinement
import TriBench.Proofs.Run.Elements
import TriBench.Proofs.Run.Errands
import TriBench.Proofs.Run.Variants

/-!
# The commands of a run

Under a resolved configuration all commands of a run are within the bounds of their purposes. Main statement:
`commands_in_bounds`.
-/

namespace TriBench.Run

section
variable {σ α β : Type} {st : Setting σ} {P : Purpose → Prop}

def Issues (st : Setting σ) (P : Purpose → Prop) (m : Running σ α) : Prop :=
  ∀ g, ∃ xs : List Errand,
    (m.run.run g).2.session.calls = g.session.calls ++ xs.map (Errand.call st) ∧ ∀ x ∈ xs, P x.purpose

theorem issues_pure (x : α) : Issues st P (pure x : Running σ α) :=
  fun g => ⟨[], (List.append_nil _).symm, by simp⟩

theorem issues_bind {m : Running σ α} {k : α → Running σ β} (hm : Issues st P m)
    (hk : ∀ x, Issues st P (k x)) :
    Issues st P (m >>= k) := by
  intro g
  obtain ⟨xs, hxs, hp⟩ := hm g
  rw [run_bind]
  rcases hr : m.run.run g with ⟨f | x, g'⟩ <;> rw [hr] at hxs
  · exact ⟨xs, hxs, hp⟩
  · obtain ⟨ys, hys, hq⟩ := hk x g'
    refine ⟨xs ++ ys, ?_, fun y hy => ?_⟩
    · dsimp only at hxs ⊢
      rw [hys, hxs, List.map_append, List.append_assoc]
    · rcases List.mem_append.1 hy with hy | hy
      · exact hp y hy
      · exact hq y hy

theorem issues_print (line : Text) : Issues st P (print st line) := by
  intro g
  obtain ⟨printed, h⟩ := run_print st line g
  rw [h]
  exact ⟨[], by simp, by simp⟩

/-- What is found in the directory of a resolved configuration, and the benchmarks in it. -/
theorem inBounds_of_found (hc : st.config.Resolved) {files : FileSystem} {prefixes : List Text}
    {paths : List Path} (hpaths : Discovery.discover files st.config prefixes = .ok paths) {p : Path}
    (hp : p ∈ paths) {b : Benchmark} (hb : Benchmark.ofPath st.config p = .ok b) {u : Purpose}
    (hu : u.Serves st b) : u.InBounds st := by
  have habs := Discovery.isAbsolute_of_mem hc.benchmarkDirectory hpaths hp
  rw [← Benchmark.path_of_ofPath hb] at habs
  exact hu.inBounds hc habs

theorem issues_benchmarks (verbose : Bool) {paths : List Path}
    (h : ∀ p ∈ paths, ∀ b, Benchmark.ofPath st.config p = .ok b → ∀ u : Purpose, u.Serves st b → P u) :
    Issues st P (benchmarks st verbose paths) := by
  induction paths with
  | nil => exact issues_pure _
  | cons p paths ih =>
    obtain ⟨hp, hpaths⟩ := List.forall_mem_cons.1 h
    refine issues_bind (fun g => ?_) fun _ => ih hpaths
    obtain ⟨xs, hxs, hserve, -⟩ := benchmark_errands st verbose p g
    refine ⟨xs, hxs, fun x hx => ?_⟩
    obtain ⟨b, hb, hu⟩ := hserve x hx
    exact hp b hb x.purpose hu

end

/-- **Commands in bounds.** Under a resolved configuration every command of a run has the time
limit, which is positive. It is privileged iff it boots modules, which are then named as they are
seen from the sandbox root. It is given in another directory iff it builds the shim in there, and
all of its paths are absolute but for those modules. A command that ends in a fault is no exception:
tools that answer otherwise only out of these bounds lead to the same run. -/
theorem commands_in_bounds {σ : Type} (st : Setting σ) (given : Config) (working : Path)
    (hworking : working.isAbsolute = true) (hconfig : given.resolve working = .ok st.config) (verbose : Bool)
    (prefixes : List Text) (g : Progress σ) :
    let run := (all st verbose prefixes).run.run g
    (∃ xs : List Errand, run.2.session.calls = g.session.calls ++ xs.map (Errand.call st) ∧
      ∀ x ∈ xs, x.purpose.InBounds st) ∧
      ∀ toolbox : Toolbox σ, (∀ u : Purpose, u.InBounds st → ∀ files tools,
          toolbox.invoke (u.command st) files tools = st.toolbox.invoke (u.command st) files tools) →
        (all { st with toolbox } verbose prefixes).run.run g = run := by
  have hc := Config.resolved_of_resolve hworking hconfig
  dsimp only
  constructor
  · obtain ⟨paths, line, hpaths, hall⟩ := run_all st verbose prefixes g
    rw [hall]
    refine issues_bind (issues_print line) (fun _ =>
      issues_bind (issues_benchmarks verbose ?_) fun _ => issues_pure _) g
    exact fun p hp b hb u hu => inBounds_of_found hc hpaths hp hb hu
  · intro toolbox hagree
    obtain ⟨hends, hechoes, -⟩ :=
      echoing_all st ⟨st.quiet, toolbox⟩ True verbose verbose (fun _ => ⟨rfl, rfl⟩)
      prefixes (Progress.Echoes.refl True g)
      fun paths hpaths p hp b hb u hu => hagree u (inBounds_of_found hc hpaths hp hb hu)
    exact Prod.ext hends hechoes.eq

theorem commands_in_bounds_a :
    let st := Setting.obliging Build.inWork
    let g : Progress Unit := { session := { files := Build.besides, tools := () } }
    let run := (all st false ["a"]).run.run g
    ("/w" : Path).isAbsolute = true ∧ Config.resolve "/w" {} = .ok st.config ∧
      Discovery.discover g.session.files st.config ["a"] = .ok ["/w/tests/benchmarks/a.c"] ∧
      (∃ xs : List Errand, run.2.session.calls = g.session.calls ++ xs.map (Errand.call st) ∧
        ∀ x ∈ xs, x.purpose.InBounds st) ∧
      ∀ toolbox : Toolbox Unit, (∀ u : Purpose, u.InBounds st → ∀ files tools,
          toolbox.invoke (u.command st) files tools = st.toolbox.invoke (u.command st) files tools) →
        (all { st with toolbox } false ["a"]).run.run g = run := by
  have hpaths : Discovery.discover Build.besides Build.inWork ["a"] = .ok ["/w/tests/benchmarks/a.c"] := by
    cbv
  exact ⟨rfl, rfl, hpaths, commands_in_bounds (Setting.obliging Build.inWork) {} "/w" rfl rfl false ["a"]
    { session := { files := Build.besides, tools := () } }⟩

end TriBench.Run
