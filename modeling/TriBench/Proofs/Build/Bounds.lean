import TriBench.Proofs.Build.Purposes
import TriBench.Proofs.Config.Resolved
import TriBench.Proofs.Path.Absolute

/-!
# The bounds of commands

Under a resolved configuration the command of a purpose has the time limit, takes privileges only
for a boot, is given in another directory only for a shim, and means the same wherever it is given.
Main statement: `Purpose.Serves.inBounds`.
-/

namespace TriBench

inductive Word
  | plain (t : Text)
  | path (p : Path)

def Word.text : Word → Text
  | plain t => t
  | path p => p.text

section
variable {σ : Type} (st : Setting σ)

namespace Component

/-- The words of a step of a fetch. What is selected is named by its path in the repository. -/
def Step.words (component : Text) (selection : List Text) : Step → List Word
  | clone =>
    [.plain st.config.tools.versionControl, .plain "clone", .plain "--filter=blob:none",
      .plain "--no-checkout", .plain st.config.repository.url, .path st.config.repository.workingCopy]
  | init => inCopy ["sparse-checkout", "init", "--cone"]
  | list => inCopy ["sparse-checkout", "list"]
  | set => inCopy ("sparse-checkout" :: "set" :: (selection ++ [component]))
  | checkout => inCopy ["checkout", st.config.repository.branch]
  | pull => inCopy ["pull", "--ff-only", "origin", st.config.repository.branch]
where
  inCopy (words : List Text) : List Word :=
    .plain st.config.tools.versionControl :: .plain "-C" ::
      .path st.config.repository.workingCopy :: words.map .plain

end Component

namespace Purpose

def words : Purpose → List Word
  | fetch step component selection => step.words st component selection
  | native source program => .plain st.config.tools.nativeCompiler :: .path source ::
      (st.config.supportSourcePaths.map .path ++ [.plain "-o", .path program])
  | sandbox source =>
    .plain st.config.tools.sandboxCompiler :: .path source :: st.config.supportSourcePaths.map .path
  | shim directory => [.plain st.config.tools.shell, .path (directory.join ⟨st.config.tools.shimBuildScript⟩),
      .path st.config.sandboxRoot]
  | boot _ modules => .plain st.config.tools.sandboxBoot :: modules.map .path
  | execution program => [.path program]

def IsBoot (u : Purpose) : Prop := ∃ p modules, u = .boot p modules

/-- The modules of a boot are seen from the sandbox root; all other paths are absolute. -/
structure InBounds (u : Purpose) : Prop where
  timeout : (u.command st).timeout = st.config.timeoutMillis ∧ 0 < st.config.timeoutMillis
  privileged : (u.command st).privileged = true ↔ u.IsBoot
  boot : ∀ p modules, u = .boot p modules →
    (u.command st).program = st.config.tools.sandboxBoot ∧ (u.command st).arguments = modules.map Path.text ∧
      modules ≠ [] ∧ ∀ m ∈ modules, Build.IsModule st m ∧ m.isAbsolute = false
  directory : ∀ d, (u.command st).directory = some d ↔ u = .shim d
  shim : ∀ d, u = .shim d → d.isAbsolute = true ∧ ∃ name files, Component.located st name files = .ok d
  words : (u.command st).program :: (u.command st).arguments = (u.words st).map Word.text
  paths : ¬ u.IsBoot → ∀ p, .path p ∈ u.words st → p.isAbsolute = true

variable {st}

/-! ## Words -/

theorem text_map_plain (ts : List Text) : (ts.map Word.plain).map Word.text = ts := by
  rw [List.map_map]
  exact List.map_id ts

theorem text_map_path (ps : List Path) : (ps.map Word.path).map Word.text = ps.map Path.text := by
  rw [List.map_map]
  rfl

theorem words_eq (u : Purpose) :
    (u.command st).program :: (u.command st).arguments = (u.words st).map Word.text := by
  cases u with
  | fetch step component selection =>
    cases step with
    | set =>
      unfold words Component.Step.words Component.Step.words.inCopy
      rw [List.map_cons, List.map_cons, List.map_cons, text_map_plain]
      rfl
    | _ => rfl
  | native source program =>
    unfold words
    rw [List.map_cons, List.map_cons, List.map_append, text_map_path]
    rfl
  | sandbox source =>
    unfold words
    rw [List.map_cons, List.map_cons, text_map_path]
    rfl
  | boot p modules =>
    unfold words
    rw [List.map_cons, text_map_path]
    rfl
  | _ => rfl

theorem path_of_mem_step {step : Component.Step} {component : Text} {selection : List Text} {p : Path}
    (h : .path p ∈ step.words st component selection) : p = st.config.repository.workingCopy := by
  cases step <;> simpa [Component.Step.words, Component.Step.words.inCopy] using h

/-! ## Paths -/

section
variable {b : Benchmark} {u : Purpose} (hc : st.config.Resolved)
include hc

theorem isAbsolute_located {name : Text} {files : FileSystem} {directory : Path}
    (h : Component.located st name files = .ok directory) : directory.isAbsolute = true := by
  have hmem := Component.mem_of_located h
  simp only [List.mem_cons, List.not_mem_nil, or_false] at hmem
  rcases hmem with rfl | rfl
  · exact Path.isAbsolute_join hc.workingCopy _
  · exact Path.isAbsolute_join hc.benchmarkDirectory _

theorem isAbsolute_program {program : Path} (h : Build.program? st b = some program) :
    program.isAbsolute = true := by
  obtain ⟨rel, -, rfl⟩ := Option.map_eq_some_iff.1 h
  exact Path.isAbsolute_join hc.sandboxRoot _

theorem not_isAbsolute_module {m : Path} (h : Build.IsModule st m) : m.isAbsolute = false := by
  cases h with
  | source h =>
    rw [Path.isAbsolute_replaceExtension, Path.not_isAbsolute_stripPrefix? hc.benchmarkDirectory h]
  | shim h =>
    have hslash := (Path.noSlash_of_mem_components (Path.mem_components_of_fileName? h)).2
    rw [Path.isAbsolute_replaceExtension, Path.isAbsolute_of_no_slash hslash]

theorem isAbsolute_sourceOf (name : Text) : (Build.sourceOf st name).isAbsolute = true := by
  unfold Build.sourceOf
  rw [Path.isAbsolute_replaceExtension]
  exact Path.isAbsolute_join hc.benchmarkDirectory _

theorem isAbsolute_of_mem_words (hb : b.path.isAbsolute = true) (hu : u.Serves st b) (hboot : ¬ u.IsBoot)
    {p : Path} (hp : .path p ∈ u.words st) : p.isAbsolute = true := by
  have hsandbox : ∀ source : Path, source.isAbsolute = true → .path p ∈ (sandbox source).words st →
      p.isAbsolute = true := by
    intro source hsource hp
    simp only [words, List.mem_cons, List.mem_map, reduceCtorEq, Word.path.injEq,
      exists_eq_right, false_or] at hp
    rcases hp with rfl | hp
    · exact hsource
    · exact hc.isAbsolute_of_mem_supportSourcePaths hp
  cases hu with
  | fetch h step selection =>
    rw [path_of_mem_step hp]
    exact hc.workingCopy
  | native hk h =>
    simp only [words, List.mem_cons, List.mem_append, List.mem_map, reduceCtorEq, Word.path.injEq,
      exists_eq_right, false_or, List.not_mem_nil, or_false] at hp
    rcases hp with rfl | hp | rfl
    · exact hb
    · exact hc.isAbsolute_of_mem_supportSourcePaths hp
    · exact isAbsolute_program hc h
  | simple hk => exact hsandbox _ hb hp
  | part h => exact hsandbox _ (isAbsolute_sourceOf hc _) hp
  | shim h hd =>
    simp only [words, List.mem_cons, reduceCtorEq, Word.path.injEq, false_or,
      List.not_mem_nil, or_false] at hp
    rcases hp with rfl | rfl
    · exact Path.isAbsolute_join (isAbsolute_located hc hd) _
    · exact hc.sandboxRoot
  | boot p hne h => exact absurd ⟨p, _, rfl⟩ hboot
  | execution hk h =>
    simp only [words, List.mem_cons, Word.path.injEq, List.not_mem_nil, or_false] at hp
    rw [hp]
    exact isAbsolute_program hc h

end

/-! ## Commands -/

theorem privileged_command (u : Purpose) : (u.command st).privileged = true ↔ u.IsBoot := by
  cases u with
  | boot p modules => exact iff_of_true rfl ⟨p, modules, rfl⟩
  | fetch step => cases step <;> exact iff_of_false Bool.false_ne_true (by rintro ⟨_, _, h⟩; cases h)
  | _ => exact iff_of_false Bool.false_ne_true (by rintro ⟨_, _, h⟩; cases h)

theorem directory_command (u : Purpose) (d : Path) : (u.command st).directory = some d ↔ u = .shim d := by
  cases u with
  | shim directory =>
    change some directory = some d ↔ _
    simp
  | fetch step => cases step <;> exact iff_of_false (by rintro ⟨⟩) (by rintro ⟨⟩)
  | _ => exact iff_of_false (by rintro ⟨⟩) (by rintro ⟨⟩)

theorem Serves.inBounds {b : Benchmark} {u : Purpose} (hc : st.config.Resolved)
    (hb : b.path.isAbsolute = true) (hu : u.Serves st b) : u.InBounds st where
  timeout := ⟨u.timeout_command st, hc.timeoutMillis_pos⟩
  privileged := u.privileged_command
  boot p modules h := by
    subst h
    cases hu with
    | boot _ hne h => exact ⟨rfl, rfl, hne, fun m hm => ⟨h m hm, not_isAbsolute_module hc (h m hm)⟩⟩
  directory := u.directory_command
  shim d h := by
    subst h
    cases hu with
    | shim _ hd => exact ⟨isAbsolute_located hc hd, _, _, hd⟩
  words := u.words_eq
  paths hboot p hp := isAbsolute_of_mem_words hc hb hu hboot hp

end Purpose

end

end TriBench
