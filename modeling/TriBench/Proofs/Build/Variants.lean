import TriBench.Proofs.Build.Errands

/-!
# Steps in a variant

A step does the same in a variant of its setting that answers the commands of its purposes alike:
only what is printed may be different, if quietness is. Main statement: `Act.Alike.echo`.
-/

namespace TriBench

section
variable {σ : Type} (st : Setting σ) (v : Setting.Variant σ)

namespace Setting.Variant

def Agrees (b : Benchmark) : Prop :=
  ∀ u : Purpose, u.Serves st b → ∀ files tools,
    v.toolbox.invoke (u.command st) files tools = st.toolbox.invoke (u.command st) files tools

end Setting.Variant

/-- Only what has been printed may be different, and even that is not if it is the same way of printing. -/
def Session.Echoes (same : Prop) (s s' : Session σ) : Prop :=
  ∃ printed, s' = { s with printed } ∧ (same → printed = s.printed)

variable {st v} {b : Benchmark} {ε α : Type} {s s' : Session σ} {same : Prop}

theorem Session.Echoes.refl (s : Session σ) : Echoes same s s := ⟨s.printed, rfl, fun _ => rfl⟩

theorem Session.Echoes.append (h : Echoes same s s') {quiet quiet' : Bool} {line line' : Text}
    (hsame : same → quiet' = quiet ∧ line' = line) :
    Echoes same (if quiet then s else { s with printed := s.printed ++ line })
      (if quiet' then s' else { s' with printed := s'.printed ++ line' }) := by
  obtain ⟨printed, rfl, hp⟩ := h
  refine ⟨if quiet' then printed else printed ++ line', ?_, fun h => ?_⟩
  · cases quiet <;> cases quiet' <;> rfl
  · obtain ⟨rfl, rfl⟩ := hsame h
    rw [hp h]
    cases quiet' <;> rfl

namespace Act.Alike

theorem value {wrap : ε → Failure} {Q : α → Prop} {a a' : Act σ ε α} (h : Alike st v b wrap Q a a') {x : α}
    (hr : (a.run s).1 = .ok (.ok x)) : Q x := by
  obtain ⟨new, -, xs, hxs⟩ := h.errands s
  exact hxs.value x hr

/-- The variant of a step ends in the same way, in the same session but for what has been printed,
and prints nothing if it is quiet. -/
theorem echo (hv : v.Agrees st b) (hsame : same → v.quiet = st.quiet) {wrap : ε → Failure} {Q : α → Prop}
    {a a' : Act σ ε α} (h : Alike st v b wrap Q a a') (hs : Session.Echoes same s s') :
    (a'.run s').1 = (a.run s).1 ∧ Session.Echoes same (a.run s).2 (a'.run s').2 ∧
      (v.quiet = true → (a'.run s').2.printed = s'.printed) := by
  induction h generalizing s s' with
  | pure | throw | slash => exact ⟨rfl, hs, fun _ => rfl⟩
  | bind ha hf iha ihf =>
    obtain ⟨hends, hsession, hsilent⟩ := iha hs
    rw [run_bind, run_bind]
    rcases hr : Act.run _ s with ⟨r, t⟩
    rcases hr' : Act.run _ s' with ⟨r', t'⟩
    rw [hr, hr'] at hends hsession
    rw [hr'] at hsilent
    dsimp only at hends hsession hsilent
    subst hends
    rcases r' with f | e | x
    · exact ⟨rfl, hsession, hsilent⟩
    · exact ⟨rfl, hsession, hsilent⟩
    · obtain ⟨hends, hsession, hsilent'⟩ := ihf x (ha.value (by rw [hr])) hsession
      exact ⟨hends, hsession, fun hquiet => (hsilent' hquiet).trans (hsilent hquiet)⟩
  | orElseFail ha iha =>
    obtain ⟨hends, hsession, hsilent⟩ := iha hs
    rw [run_orElseFail, run_orElseFail, hends]
    exact ⟨rfl, hsession, hsilent⟩
  | report blanks word rest =>
    rw [Setting.run_report_eq, Setting.run_report_eq]
    exact ⟨rfl, hs.append fun h => ⟨hsame h, rfl⟩, fun hquiet => congrArg Session.printed (if_pos hquiet)⟩
  | look question k k' hk ih =>
    obtain ⟨printed, rfl, hp⟩ := hs
    rw [run_bind, run_bind, run_get, run_get]
    exact ih s.files ⟨printed, rfl, hp⟩
  | makeDirectories =>
    obtain ⟨printed, rfl, hp⟩ := hs
    rw [Setting.run_makeDirectories, Setting.run_makeDirectories]
    exact ⟨rfl, ⟨printed, rfl, hp⟩, fun _ => rfl⟩
  | @setUp component hc =>
    obtain ⟨printed, rfl, hp⟩ := hs
    have hagree : (st.vary v).toolbox.invoke (Component.initCommand (st.vary v)) s.files s.tools =
        st.toolbox.invoke (Component.initCommand st) s.files s.tools := hv _ (.fetch hc .init []) _ _
    rw [Component.run_setUp, Component.run_setUp]
    dsimp only
    rw [hagree]
    split
    · exact ⟨rfl, ⟨printed, rfl, hp⟩, fun _ => rfl⟩
    · rcases st.toolbox.invoke (Component.initCommand st) s.files s.tools with ⟨f | e | o, files, tools⟩ <;>
        exact ⟨rfl, ⟨printed, rfl, hp⟩, fun _ => rfl⟩
  | @invoke u hu wrap hw =>
    obtain ⟨printed, rfl, hp⟩ := hs
    have hagree : (st.vary v).toolbox.invoke (u.command st) s.files s.tools =
        st.toolbox.invoke (u.command st) s.files s.tools := hv u hu _ _
    rw [Setting.run_invoke, Setting.run_invoke, hagree]
    rcases st.toolbox.invoke (u.command st) s.files s.tools with ⟨f | answer, files, tools⟩ <;>
      exact ⟨rfl, ⟨printed, rfl, hp⟩, fun _ => rfl⟩

end Act.Alike

end

end TriBench
