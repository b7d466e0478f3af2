import TriBench.Config.Basic
import TriBench.Proofs.Path.Pieces

/-!
# Resolved configurations

What a configuration that has been resolved can be relied on for: its directories are absolute, and
its time limit is positive.
-/

namespace TriBench

namespace Path

theorem isAbsolute_of_absolute? {directory p q : Path} (hd : directory.isAbsolute = true)
    (h : absolute? directory p = some q) :
    q.isAbsolute = true := by
  have hof : ∀ start : Path, start.isAbsolute = true → ∀ cs, (ofComponents start cs).isAbsolute = true := by
    intro start hstart cs
    unfold ofComponents
    induction cs generalizing start with
    | nil => exact hstart
    | cons c cs ih => exact ih _ (isAbsolute_join hstart _)
  have hend : ∀ {r : Path}, r.isAbsolute = true →
      (if p.text.getLast? = some '/' then r.join "" else r).isAbsolute = true := by
    intro r hr
    split
    · exact isAbsolute_join hr _
    · exact hr
  unfold absolute? at h
  split at h
  · cases h
  · simp only [Option.some.injEq] at h
    subst h
    apply hend
    split
    · rename_i habs
      split
      · exact hof _ rfl _
      · rw [components_eq, startComponents_of_absolute habs]
        exact hof "/" rfl _
    · exact hof _ hd _

end Path

namespace Config

/-- Paths that are seen from the directories of the configuration are absolute. -/
structure Resolved (c : Config) : Prop where
  timeout : 0 < c.timeout
  benchmarkDirectory : c.benchmarkDirectory.isAbsolute = true
  sandboxRoot : c.sandboxRoot.isAbsolute = true
  workingCopy : c.repository.workingCopy.isAbsolute = true

def withDirectories (c : Config) (benchmarks root copy : Path) : Config :=
  { c with
    benchmarkDirectory := benchmarks, sandboxRoot := root
    repository := { c.repository with workingCopy := copy } }

theorem resolve_eq_ok_iff {working : Path} {c c' : Config} : c.resolve working = .ok c' ↔ c.timeout ≠ 0 ∧
    ∃ benchmarks root copy, Path.absolute? working c.benchmarkDirectory = some benchmarks ∧
      Path.absolute? working c.sandboxRoot = some root ∧
      Path.absolute? working c.repository.workingCopy = some copy ∧
      c' = c.withDirectories benchmarks root copy := by
  unfold resolve absolute
  by_cases htimeout : c.timeout = 0
  · simp [htimeout]
  · rw [if_neg htimeout]
    cases Path.absolute? working c.benchmarkDirectory with
    | none => simp [bind, Except.bind]
    | some benchmarks =>
      cases Path.absolute? working c.sandboxRoot with
      | none => simp [bind, Except.bind]
      | some root =>
        cases Path.absolute? working c.repository.workingCopy with
        | none => simp [bind, Except.bind]
        | some copy => simp [bind, Except.bind, pure, Except.pure, htimeout, withDirectories, eq_comm]

theorem resolved_of_resolve {working : Path} {given c : Config} (hw : working.isAbsolute = true)
    (h : given.resolve working = .ok c) : c.Resolved := by
  obtain ⟨htimeout, benchmarks, root, copy, hb, hr, hcopy, rfl⟩ := resolve_eq_ok_iff.1 h
  exact ⟨Nat.pos_of_ne_zero htimeout, Path.isAbsolute_of_absolute? hw hb, Path.isAbsolute_of_absolute? hw hr,
    Path.isAbsolute_of_absolute? hw hcopy⟩

theorem isAbsolute_of_resolve {working : Path} {given c : Config} (hw : working.isAbsolute = true)
    (h : given.resolve working = .ok c) :
    c.benchmarkDirectory.isAbsolute = true ∧ c.sandboxRoot.isAbsolute = true :=
  ⟨(resolved_of_resolve hw h).benchmarkDirectory, (resolved_of_resolve hw h).sandboxRoot⟩

theorem Resolved.timeoutMillis_pos {c : Config} (h : c.Resolved) : 0 < c.timeoutMillis :=
  Nat.mul_pos (by decide) h.timeout

theorem Resolved.isAbsolute_of_mem_supportSourcePaths {c : Config} (h : c.Resolved) {p : Path}
    (hp : p ∈ c.supportSourcePaths) :
    p.isAbsolute = true := by
  obtain ⟨name, -, rfl⟩ := List.mem_map.1 hp
  exact Path.isAbsolute_join h.benchmarkDirectory _

end Config

end TriBench
