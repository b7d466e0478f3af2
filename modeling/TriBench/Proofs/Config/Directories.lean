import TriBench.Proofs.Path.FromRoot

/-!
# Directories of resolved configurations

Resolving a configuration fails for want of a time limit or of a directory, and for nothing else.
What it changes is how the directories are told, from the root and no longer from the current
directory. Main statement: `resolve_from_root`.
-/

namespace TriBench.Config

/-- The second configuration tells from the root what the first one tells from the directory, and is
the same otherwise. -/
structure FromRoot (directory : Path) (c c' : Config) : Prop where
  benchmarks : Path.FromRoot directory c.benchmarkDirectory c'.benchmarkDirectory
  root : Path.FromRoot directory c.sandboxRoot c'.sandboxRoot
  copy : Path.FromRoot directory c.repository.workingCopy c'.repository.workingCopy
  rest : c' = c.withDirectories c'.benchmarkDirectory c'.sandboxRoot c'.repository.workingCopy

structure Alike (c c' : Config) : Prop where
  benchmarks : c.benchmarkDirectory.Alike c'.benchmarkDirectory
  root : c.sandboxRoot.Alike c'.sandboxRoot
  copy : c.repository.workingCopy.Alike c'.repository.workingCopy
  rest : c = c'.withDirectories c.benchmarkDirectory c.sandboxRoot c.repository.workingCopy

variable {working : Path} {c c' : Config}

theorem resolve_eq_error_iff (working : Path) (c : Config) : (∃ e, c.resolve working = .error e) ↔
    c.timeout = 0 ∨ c.benchmarkDirectory.text = [] ∨ c.sandboxRoot.text = [] ∨
    c.repository.workingCopy.text = [] := by
  constructor
  · rintro ⟨e, he⟩
    by_contra hnone
    rw [not_or, not_or, not_or] at hnone
    obtain ⟨htimeout, hb, hr, hcopy⟩ := hnone
    obtain ⟨benchmarks, hb⟩ := (Path.exists_absolute?_iff working).2 hb
    obtain ⟨root, hr⟩ := (Path.exists_absolute?_iff working).2 hr
    obtain ⟨copy, hcopy⟩ := (Path.exists_absolute?_iff working).2 hcopy
    have hok := resolve_eq_ok_iff.2 ⟨htimeout, benchmarks, root, copy, hb, hr, hcopy, rfl⟩
    rw [he] at hok
    cases hok
  · intro h
    cases hresolve : c.resolve working with
    | error e => exact ⟨e, rfl⟩
    | ok c' =>
      obtain ⟨htimeout, benchmarks, root, copy, hb, hr, hcopy, -⟩ := resolve_eq_ok_iff.1 hresolve
      rcases h with h | h | h | h
      · exact absurd h htimeout
      · exact absurd h ((Path.exists_absolute?_iff working).1 ⟨benchmarks, hb⟩)
      · exact absurd h ((Path.exists_absolute?_iff working).1 ⟨root, hr⟩)
      · exact absurd h ((Path.exists_absolute?_iff working).1 ⟨copy, hcopy⟩)

theorem FromRoot.exists_alike (h : FromRoot working c c') (htimeout : c.timeout ≠ 0) (working' : Path) :
    ∃ c'', c'.resolve working' = .ok c'' ∧ c''.Alike c' := by
  obtain ⟨benchmarks, hb, hbAlike⟩ := Path.exists_alike h.benchmarks.absolute h.benchmarks.noDot working'
  obtain ⟨root, hr, hrAlike⟩ := Path.exists_alike h.root.absolute h.root.noDot working'
  obtain ⟨copy, hcopy, hcopyAlike⟩ := Path.exists_alike h.copy.absolute h.copy.noDot working'
  have htimeout' : c'.timeout ≠ 0 := by
    rw [h.rest]
    exact htimeout
  exact ⟨_, resolve_eq_ok_iff.2 ⟨htimeout', benchmarks, root, copy, hb, hr, hcopy, rfl⟩, hbAlike,
    hrAlike, hcopyAlike, rfl⟩

/-- **Directories from the root.** From an absolute current directory without single dots a
configuration is resolved unless its time limit is zero or one of its directories is the empty path.
The directories then tell from the root what they told before, and nothing else has changed. To
resolve once more, from any directory, changes nothing: the paths have the same components, and even
the same text if there are no repeated slashes in the first current directory. -/
theorem resolve_from_root (hw : working.isAbsolute = true) (hdot : ['.'] ∉ working.pieces) (c : Config) :
    ((∃ e, c.resolve working = .error e) ↔
      c.timeout = 0 ∨ c.benchmarkDirectory.text = [] ∨ c.sandboxRoot.text = [] ∨
      c.repository.workingCopy.text = []) ∧
    ∀ c', c.resolve working = .ok c' → FromRoot working c c' ∧
      ∀ working', ∃ c'', c'.resolve working' = .ok c'' ∧ c''.Alike c' ∧
        (¬ ['/', '/'] <:+: working.text → c'' = c') := by
  refine ⟨resolve_eq_error_iff working c, fun c' h => ?_⟩
  obtain ⟨htimeout, benchmarks, root, copy, hb, hr, hcopy, rfl⟩ := resolve_eq_ok_iff.1 h
  have hfrom : FromRoot working c (c.withDirectories benchmarks root copy) :=
    ⟨Path.fromRoot_of_absolute? hw hb hdot, Path.fromRoot_of_absolute? hw hr hdot,
      Path.fromRoot_of_absolute? hw hcopy hdot, rfl⟩
  refine ⟨hfrom, fun working' => ?_⟩
  obtain ⟨c'', hc'', halike⟩ := hfrom.exists_alike htimeout working'
  refine ⟨c'', hc'', halike, fun hdouble => ?_⟩
  have hsettled := Path.isSettled_of_noDouble hw hdot hdouble
  have hagain : (c.withDirectories benchmarks root copy).resolve working' =
      .ok (c.withDirectories benchmarks root copy) :=
    resolve_eq_ok_iff.2 ⟨htimeout, benchmarks, root, copy,
      Path.isSettled_of_absolute? hw hsettled hb working',
      Path.isSettled_of_absolute? hw hsettled hr working',
      Path.isSettled_of_absolute? hw hsettled hcopy working', rfl⟩
  rw [hagain] at hc''
  exact (Except.ok.inj hc'').symm

def spelled : Config where
  benchmarkDirectory := ".//a/./../b/"
  sandboxRoot := "//x//./y"
  repository := { workingCopy := "./" }

theorem resolve_from_root_spelled :
    ∃ c', spelled.resolve "/w" = .ok c' ∧ c'.benchmarkDirectory = "/w/a/../b/" ∧
    c'.sandboxRoot = "//x/y" ∧ c'.repository.workingCopy = "/w/" ∧ FromRoot "/w" spelled c' ∧
    ∀ working', c'.resolve working' = .ok c' := by
  have hresolve : spelled.resolve "/w" = .ok (spelled.withDirectories "/w/a/../b/" "//x/y" "/w/") := rfl
  have hw : ("/w" : Path).isAbsolute = true := rfl
  obtain ⟨hfrom, hagain⟩ := (resolve_from_root hw (by decide) spelled).2 _ hresolve
  refine ⟨_, hresolve, rfl, rfl, rfl, hfrom, fun working' => ?_⟩
  obtain ⟨c'', hc'', -, hsame⟩ := hagain working'
  rw [hc'', hsame (by decide)]

end TriBench.Config
