import TriBench.Proofs.Build.Modules
import TriBench.Proofs.Build.Simple

/-!
# What a build can fail with

A build fails with what its steps fail with. Its own checks, of the kind of a benchmark and of where
its files lie, are passed by all benchmarks in the benchmark directory, unless the delimiter lets a
part be called by dots. Main statements: `both_failsOnly` and `parts_failsOnly`.
-/

namespace TriBench

namespace Act

section
variable {σ ε δ α β : Type}

theorem value_of_orElseFail {a : Act σ δ α} {wrap : δ → ε} {s : Session σ} {x : α}
    (h : ((a.orElseFail wrap).run s).1 = .ok (.ok x)) : (a.run s).1 = .ok (.ok x) := by
  rw [run_orElseFail] at h
  rcases hr : (a.run s).1 with f | e | y <;> rw [hr] at h <;> cases h
  rfl

def FailsOnly (a : Act σ ε α) (P : ε → Prop) : Prop := ∀ s e, (a.run s).1 = .ok (.error e) → P e

namespace FailsOnly
variable {P : ε → Prop}

theorem of_run {a : Act σ ε α} (h : ∀ s, ∃ x s', a.run s = (.ok (.ok x), s')) : a.FailsOnly P := by
  intro s e he
  obtain ⟨x, s', hr⟩ := h s
  rw [hr] at he
  cases he

theorem pure (x : α) : (pure x : Act σ ε α).FailsOnly P := of_run fun s => ⟨x, s, rfl⟩

theorem fault (f : Fault) : (fault f : Act σ ε α).FailsOnly P := fun _ _ he => by cases he

theorem throw {e : ε} (h : P e) : (throw e : Act σ ε α).FailsOnly P := fun _ _ he => by cases he; exact h

theorem bind_of {a : Act σ ε β} {f : β → Act σ ε α} (ha : a.FailsOnly P)
    (hf : ∀ s x, (a.run s).1 = .ok (.ok x) → (f x).FailsOnly P) : (a >>= f).FailsOnly P := by
  intro s e he
  rw [run_bind] at he
  rcases hr : a.run s with ⟨g | e' | x, s'⟩ <;> rw [hr] at he
  · cases he
  · cases he
    exact ha s e (by rw [hr])
  · exact hf s x (by rw [hr]) s' e he

theorem bind {a : Act σ ε β} {f : β → Act σ ε α} (ha : a.FailsOnly P) (hf : ∀ x, (f x).FailsOnly P) :
    (a >>= f).FailsOnly P :=
  bind_of ha fun _ x _ => hf x

theorem orElseFail (a : Act σ δ α) {wrap : δ → ε} (h : ∀ e, P (wrap e)) :
    (a.orElseFail wrap).FailsOnly P := by
  intro s e he
  rw [run_orElseFail] at he
  rcases hr : (a.run s).1 with g | e' | x <;> rw [hr] at he
  · cases he
  · cases he
    exact h e'
  · cases he

theorem withExtension (p : Path) (extension : Text) :
    (withExtension p extension : Act σ ε Path).FailsOnly P := by
  by_cases hs : '/' ∈ extension
  · rw [withExtension_of_slash hs]
    exact fault _
  · rw [withExtension_of_no_slash hs]
    exact pure _

theorem report (st : Setting σ) (blanks : Nat) (word rest : Text) :
    (st.report blanks word rest : Act σ ε Unit).FailsOnly P := by
  refine of_run fun s => ?_
  obtain ⟨printed, h⟩ := st.run_report blanks word rest s
  exact ⟨_, _, h⟩

theorem makeParent {p : Path} {wrap : Path → IoError → ε} (h : ∀ q e, P (wrap q e)) :
    (Setting.makeParent p wrap : Act σ ε Unit).FailsOnly P := by
  unfold Setting.makeParent
  split
  · exact pure _
  · exact orElseFail _ (h _)

end FailsOnly

end

end Act

namespace Build

section
variable {σ : Type} (st : Setting σ)

/-- The failures that are left to the build of a benchmark. Directories are made for programs, which
composites do not have, and components are fetched for composites. No benchmark is built as one of
the other kind. -/
inductive CanFail (b : Benchmark) : BuildError → Prop
  | directory (hk : b.kind = .simple) (p : Path) (cause : IoError) : CanFail b (.directory p cause)
  | toolchain (p : Path) (cause : ToolFailure) : CanFail b (.toolchain p cause)
  | fetching (hk : b.kind = .composite) (cause : FetchError) : CanFail b (.fetching cause)
  /-- A part that is called by dots leads out of its directory, or to no name at all. -/
  | outside (hk : b.kind = .composite) (hd : st.config.compositeDelimiter ≠ '.') {name : Text}
    (h : .source name ∈ b.parts) : CanFail b (.outside (sourceOf st name) st.config.benchmarkDirectory)
  | unnamed (hk : b.kind = .composite) (hd : st.config.compositeDelimiter ≠ '.') {name : Text}
    (h : .shim name ∈ b.parts) {directory : Path}
    (hdirectory : directory ∈ [st.config.repository.workingCopy.join ⟨name⟩,
      st.config.benchmarkDirectory.join ⟨name⟩]) :
    CanFail b (.componentName directory)

variable {st} {b : Benchmark} {P : BuildError → Prop}

/-! ## One artifact -/

theorem relative_failsOnly {p : Path}
    (h : p.stripPrefix? st.config.benchmarkDirectory = none → P (.outside p st.config.benchmarkDirectory)) :
    (relative st p).FailsOnly P := by
  unfold relative
  split
  · exact .pure _
  · exact .throw (h ‹_›)

theorem sandboxSource_failsOnly {source : Path} (htoolchain : ∀ cause, P (.toolchain source cause))
    (houtside : source.stripPrefix? st.config.benchmarkDirectory = none →
      P (.outside source st.config.benchmarkDirectory)) :
    (sandboxSource st source).FailsOnly P := by
  unfold sandboxSource
  exact (relative_failsOnly houtside).bind fun _ => (Act.FailsOnly.withExtension _ _).bind fun _ =>
    (Act.FailsOnly.report st _ _ _).bind fun _ =>
      (Act.FailsOnly.orElseFail _ htoolchain).bind fun _ => .pure _

theorem shim_failsOnly {directory : Path} (htoolchain : ∀ cause, P (.toolchain directory cause))
    (hunnamed : directory.fileName? = none → P (.componentName directory)) :
    (shim st directory).FailsOnly P := by
  unfold shim
  split
  · exact .throw (hunnamed ‹_›)
  · exact (Act.FailsOnly.report st _ _ _).bind fun _ => (Act.FailsOnly.orElseFail _ htoolchain).bind fun _ =>
      (Act.FailsOnly.withExtension _ _).bind fun _ => .pure _

/-! ## Simple benchmarks -/

section
variable (hk : b.kind = .simple)
include hk

theorem native_failsOnly {program : Path} (hp : program? st b = some program) :
    (native st b).FailsOnly (CanFail st b) := by
  rw [native_eq hk hp]
  exact (Act.FailsOnly.makeParent (.directory hk)).bind fun _ => (Act.FailsOnly.report st _ _ _).bind fun _ =>
    (Act.FailsOnly.orElseFail _ (.toolchain b.path)).bind fun _ => .pure _

theorem both_failsOnly {rel : Path} (h : b.path.stripPrefix? st.config.benchmarkDirectory = some rel) :
    (both st b).FailsOnly (CanFail st b) := by
  have hsandbox : (sandbox st b).FailsOnly (CanFail st b) := by
    unfold sandbox
    simp only [hk, ne_eq, not_true_eq_false, if_false]
    exact sandboxSource_failsOnly (.toolchain b.path) fun hnone => by rw [h] at hnone; cases hnone
  exact (native_failsOnly hk (program?_of_inside h)).bind fun program => hsandbox.bind fun module =>
    .pure (program, module)

end

/-! ## Composites -/

section
variable {p : Path} (hb : Benchmark.ofPath st.config p = .ok b) (hk : b.kind = .composite)
include hb hk

theorem source_inside (hd : st.config.compositeDelimiter = '.') (hext : '/' ∉ st.config.sourceExtension)
    {q : Part} (hq : q ∈ b.parts) :
    (sourceOf st q.name).stripPrefix? st.config.benchmarkDirectory ≠ none := by
  obtain ⟨hdot, hname⟩ := Benchmark.undotted_of_mem_parts hb hk hd hq
  have hstem : Path.stem q.name = q.name := Path.stem_eq_self_iff.2 fun h => hdot (List.mem_of_mem_tail h)
  rw [sourceOf, Path.replaceExtension_join _ hname hext, hstem,
    Path.stripPrefix?_join _ (hname.isName.suffixed hext)]
  exact Option.some_ne_none _

theorem shim_named (hd : st.config.compositeDelimiter = '.') {name : Text} (hq : .shim name ∈ b.parts)
    {directory : Path}
    (h : directory ∈ [st.config.repository.workingCopy.join ⟨name⟩,
      st.config.benchmarkDirectory.join ⟨name⟩]) :
    directory.fileName? = some name := by
  have hname := (Benchmark.undotted_of_mem_parts hb hk hd hq).2.isName
  simp only [List.mem_cons, List.not_mem_nil, or_false] at h
  rcases h with rfl | rfl <;> exact Path.fileName?_join _ hname

theorem part_failsOnly {q : Part} (hq : q ∈ b.parts) : (part st q).FailsOnly (CanFail st b) := by
  cases q with
  | source name =>
    simp only [part]
    by_cases hext : '/' ∈ st.config.sourceExtension
    · rw [Act.withExtension_of_slash hext]
      exact .bind_of (.fault _) fun _ _ h => by cases h
    · rw [Act.withExtension_of_no_slash hext, pure_bind]
      refine sandboxSource_failsOnly (.toolchain _) fun hnone => .outside hk (fun hd => ?_) hq
      exact source_inside hb hk hd hext hq hnone
  | shim name =>
    simp only [part]
    refine .bind_of (.orElseFail _ (.fetching hk)) fun s directory h => ?_
    have hfetched : (Component.fetched st name s).ending = .ok (.ok directory) := Act.value_of_orElseFail h
    have hmem := Component.mem_of_fetched hfetched
    refine shim_failsOnly (.toolchain directory) fun hnone => .unnamed hk (fun hd => ?_) hq hmem
    rw [shim_named hb hk hd hq hmem] at hnone
    cases hnone

theorem parts_failsOnly : (parts st b.parts).FailsOnly (CanFail st b) := by
  have hparts : ∀ qs ⊆ b.parts, (parts st qs).FailsOnly (CanFail st b) := by
    intro qs hqs
    induction qs with
    | nil => exact .pure []
    | cons q qs ih =>
      obtain ⟨hq, hqs⟩ := List.cons_subset.1 hqs
      exact (part_failsOnly hb hk hq).bind fun artifact => (ih hqs).bind fun artifacts =>
        .pure (artifact :: artifacts)
  exact hparts b.parts (List.Subset.refl _)

end

/-- A dot is the benchmark directory itself, and the extension goes to the name of that. -/
example :
    ((parts (Setting.obliging { compositeDelimiter := '+' }) [.source "."]).run
      { files := .emptyAt [], tools := () }).1 =
    .ok (.error (.outside "tests/benchmarks.c" "tests/benchmarks")) := rfl

end

end Build

end TriBench
