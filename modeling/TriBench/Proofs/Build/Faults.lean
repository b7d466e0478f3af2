import TriBench.Proofs.Build.Variants

/-!
# Where faults come from

A step meets a fault only in a command under the configured time limit, or in an extension with a
slash in it. Steps that are put together meet no others, and failures of commands, files and
directories are never among them. Main statement: `Act.Alike.risked`.
-/

namespace TriBench

section
variable {σ : Type} (st : Setting σ)

/-- The faults that the setting leaves open: those of commands under its time limit, and its extensions. -/
inductive Setting.Risks : Fault → Prop
  | command {c : Command} {files : FileSystem} {tools : σ} {f : Fault}
    (htimeout : c.timeout = st.config.timeoutMillis)
    (h : (st.toolbox.invoke c files tools).1 = .error f) : Risks f
  | slash {extension : Text} (hmem : extension ∈ [st.config.sourceExtension, st.config.moduleExtension])
    (h : '/' ∈ extension) : Risks (.slashInExtension extension)

def Act.Risked {ε α : Type} (a : Act σ ε α) : Prop := ∀ s f, (a.run s).1 = .error f → st.Risks f

end

section
variable {σ ε δ α β : Type} {st : Setting σ}

namespace Act

theorem risked_of_run {a : Act σ ε α} (h : ∀ s, ∃ r s', a.run s = (.ok r, s')) : a.Risked st := by
  intro s f hf
  obtain ⟨r, s', hr⟩ := h s
  rw [hr] at hf
  cases hf

theorem risked_invoke {c : Command} (hc : c.timeout = st.config.timeoutMillis) : (st.invoke c).Risked st := by
  intro s f h
  rw [Setting.run_invoke] at h
  rcases hr : st.toolbox.invoke c s.files s.tools with ⟨e | answer, files, tools⟩ <;> rw [hr] at h
  · cases h
    exact .command hc (by rw [hr])
  · cases h

theorem risked_setUp (component : Text) : (Component.setUp st component).Risked st := by
  intro s f h
  rw [Component.run_setUp] at h
  by_cases hready : s.selectionReady = true
  · rw [if_pos hready] at h
    cases h
  · rw [if_neg hready] at h
    rcases hr : st.toolbox.invoke (Component.initCommand st) s.files s.tools
      with ⟨e | e | o, files, tools⟩ <;>
      rw [hr] at h
    · cases h
      exact .command (c := Component.initCommand st) rfl (by rw [hr])
    · cases h
    · cases h

theorem Alike.risked {v : Setting.Variant σ} {b : Benchmark} {wrap : ε → Failure} {Q : α → Prop}
    {a a' : Act σ ε α} (h : Alike st v b wrap Q a a') : a.Risked st := by
  induction h with
  | pure | throw => exact risked_of_run fun s => ⟨_, s, rfl⟩
  | slash hmem h =>
    intro s f hf
    cases hf
    exact .slash hmem h
  | bind ha hf iha ihf =>
    intro s fault h
    rw [run_bind] at h
    rcases hr : Act.run _ s with ⟨e | e | x, s'⟩ <;> rw [hr] at h
    · cases h
      exact iha s fault (by rw [hr])
    · cases h
    · exact ihf x (ha.value (congrArg Prod.fst hr)) s' fault h
  | @orElseFail ε δ α wrap Q a a' g ha iha =>
    intro s f h
    apply iha s f
    rw [run_orElseFail] at h
    cases hr : (a.run s).1 with
    | error e =>
      rw [hr] at h
      cases h
      rfl
    | ok r => rw [hr] at h; cases h
  | report blanks word rest =>
    apply risked_of_run
    intro s
    obtain ⟨printed, h⟩ := st.run_report blanks word rest s
    exact ⟨_, _, h⟩
  | look question k k' hk ih =>
    intro s f h
    exact ih s.files s f h
  | makeDirectories =>
    apply risked_of_run
    intro s
    exact ⟨_, _, Setting.run_makeDirectories _ s⟩
  | setUp => exact risked_setUp _
  | @invoke u => exact risked_invoke (u.timeout_command st)

end Act

end

end TriBench
