import TriBench.Session

/-!
# Steps and the log of their commands

A step ends by a fault, by a failure, or with a value, and it only ever adds to the log. What it
adds accounts for its ending: every command has succeeded, but for the last one when the step fails
with the failure of a command. Steps that are put together keep this.
-/

namespace TriBench

abbrev Ending (ε α : Type) := Except Fault (Except ε α)

section
variable {σ ε δ α β : Type}

/-! ## The run of a step -/

namespace Act

@[simp] theorem run_pure (x : α) (s : Session σ) : (pure x : Act σ ε α).run s = (.ok (.ok x), s) := rfl

@[simp] theorem run_throw (e : ε) (s : Session σ) :
    (throw e : Act σ ε α).run s = (.ok (.error e), s) := rfl

@[simp] theorem run_fault (f : Fault) (s : Session σ) :
    (fault f : Act σ ε α).run s = (.error f, s) := rfl

@[simp] theorem run_get (s : Session σ) : (get : Act σ ε (Session σ)).run s = (.ok (.ok s), s) := rfl

@[simp] theorem run_set (s s' : Session σ) : (set s' : Act σ ε PUnit).run s = (.ok (.ok ⟨⟩), s') := rfl

@[simp] theorem run_modify (g : Session σ → Session σ) (s : Session σ) :
    (modify g : Act σ ε PUnit).run s = (.ok (.ok ⟨⟩), g s) := rfl

theorem run_bind (a : Act σ ε α) (f : α → Act σ ε β) (s : Session σ) :
    (a >>= f).run s = match a.run s with
      | (.ok (.ok x), s') => (f x).run s'
      | (.ok (.error e), s') => (.ok (.error e), s')
      | (.error x, s') => (.error x, s') := by
  simp only [run, ExceptT.run_bind, StateT.run_bind]
  rcases (ExceptT.run (ExceptT.run a)).run s with ⟨_ | _ | x, s'⟩ <;> rfl

theorem run_bind_value {a : Act σ ε α} {f : α → Act σ ε β} {s s'' : Session σ} {y : β}
    (h : (a >>= f).run s = (.ok (.ok y), s'')) :
    ∃ x s', a.run s = (.ok (.ok x), s') ∧ (f x).run s' = (.ok (.ok y), s'') := by
  rw [run_bind] at h
  rcases ha : a.run s with ⟨_ | _ | x, s'⟩ <;> rw [ha] at h
  · cases h
  · cases h
  · exact ⟨x, s', rfl, h⟩

theorem run_orElseFail (a : Act σ ε α) (wrap : ε → δ) (s : Session σ) :
    (a.orElseFail wrap).run s = ((a.run s).1.map (·.mapError wrap), (a.run s).2) := by
  have h : ExceptT.run (a.orElseFail wrap) = Except.mapError wrap <$> ExceptT.run a := rfl
  rw [run, h, ExceptT.run_map, StateT.run_map]
  rfl

theorem withExtension_of_no_slash {extension : Text} (h : '/' ∉ extension) (p : Path) :
    (withExtension p extension : Act σ ε Path) = pure (p.replaceExtension extension) := by
  simp [withExtension, Path.withExtension?, h]

theorem withExtension_of_slash {extension : Text} (h : '/' ∈ extension) (p : Path) :
    (withExtension p extension : Act σ ε Path) = fault (.slashInExtension extension) := by
  simp [withExtension, Path.withExtension?, h]

end Act

namespace Setting

def obliging (config : Config) : Setting Unit :=
  { config, toolbox := ⟨fun _ files tools => (.ok (.ok {}), files, tools)⟩, quiet := true, colours := false }

theorem run_invoke (st : Setting σ) (c : Command) (s : Session σ) :
    (st.invoke c).run s = match st.toolbox.invoke c s.files s.tools with
      | (.error f, files, tools) => (.error f, { s with files, tools })
      | (.ok answer, files, tools) =>
        (.ok answer, { s with files, tools, calls := s.calls ++ [⟨c, answer⟩] }) := by
  unfold invoke
  rw [Act.run_bind, Act.run_get]
  rcases h : st.toolbox.invoke c s.files s.tools with ⟨_ | _ | output, files, tools⟩ <;>
    simp only [h, Act.run_bind, Act.run_set, Act.run_fault, Act.run_throw, Act.run_pure]

theorem run_invoke_orElseFail (st : Setting σ) (c : Command) (wrap : ToolFailure → δ) (s : Session σ) :
    ((st.invoke c).orElseFail wrap).run s = match st.toolbox.invoke c s.files s.tools with
      | (.error f, files, tools) => (.error f, { s with files, tools })
      | (.ok (.error e), files, tools) =>
        (.ok (.error (wrap e)), { s with files, tools, calls := s.calls ++ [⟨c, .error e⟩] })
      | (.ok (.ok o), files, tools) =>
        (.ok (.ok o), { s with files, tools, calls := s.calls ++ [⟨c, .ok o⟩] }) := by
  rw [Act.run_orElseFail, run_invoke]
  rcases st.toolbox.invoke c s.files s.tools with ⟨_ | _ | _, files, tools⟩ <;> rfl

theorem run_report_eq (st : Setting σ) (blanks : Nat) (word rest : Text) (s : Session σ) :
    (st.report blanks word rest : Act σ ε Unit).run s = (.ok (.ok ()), if st.quiet then s else
      { s with printed := s.printed ++ (st.heading blanks word ++ ' ' :: rest ++ ['\n']) }) := by
  unfold report
  split
  · rfl
  · rw [← List.append_assoc, ← List.append_assoc]
    rfl

theorem run_report (st : Setting σ) (blanks : Nat) (word rest : Text) (s : Session σ) :
    ∃ printed, (st.report blanks word rest : Act σ ε Unit).run s = (.ok (.ok ()), { s with printed }) := by
  rw [run_report_eq]
  split
  · exact ⟨s.printed, rfl⟩
  · exact ⟨_, rfl⟩

theorem run_makeDirectories (p : Path) (s : Session σ) :
    (makeDirectories p).run s =
      (.ok (s.files.makeDirectories p).1, { s with files := (s.files.makeDirectories p).2 }) := by
  unfold makeDirectories
  rw [Act.run_bind, Act.run_get]
  rcases h : s.files.makeDirectories p with ⟨_ | _, files⟩ <;>
    simp only [h, Act.run_bind, Act.run_set, Act.run_throw, Act.run_pure]

theorem run_makeParent (p : Path) (wrap : Path → IoError → ε) (s : Session σ) :
    (makeParent p wrap).run s = match p.parent? with
      | none => (.ok (.ok ()), s)
      | some parent => (.ok ((s.files.makeDirectories parent).1.mapError (wrap parent)),
          { s with files := (s.files.makeDirectories parent).2 }) := by
  unfold makeParent
  cases p.parent? with
  | none => rfl
  | some parent =>
    dsimp only
    rw [Act.run_orElseFail, run_makeDirectories]
    rfl

end Setting

/-! ## What a step adds to the log -/

namespace Act

def LogsFrom (a : Act σ ε α) (s : Session σ) (Q : Ending ε α → List Call → Prop) : Prop :=
  ∃ new, (a.run s).2.calls = s.calls ++ new ∧ Q (a.run s).1 new

def Logs (a : Act σ ε α) (Q : Ending ε α → List Call → Prop) : Prop := ∀ s, a.LogsFrom s Q

section
variable {Q : Ending ε α → List Call → Prop}

theorem LogsFrom.and {R : Ending ε α → List Call → Prop} {a : Act σ ε α} {s : Session σ}
    (hq : a.LogsFrom s Q)
    (hr : a.LogsFrom s R) : a.LogsFrom s fun r new => Q r new ∧ R r new := by
  obtain ⟨new, hnew, h⟩ := hq
  obtain ⟨new', hnew', h'⟩ := hr
  have he : new' = new := List.append_cancel_left (hnew'.symm.trans hnew)
  subst he
  exact ⟨new', hnew, h, h'⟩

theorem Logs.pure {x : α} (h : Q (.ok (.ok x)) []) : (pure x : Act σ ε α).Logs Q :=
  fun s => ⟨[], by simp, h⟩

theorem Logs.throw {e : ε} (h : Q (.ok (.error e)) []) : (throw e : Act σ ε α).Logs Q :=
  fun s => ⟨[], by simp, h⟩

variable {P : Ending ε β → List Call → Prop} {a : Act σ ε β} {f : β → Act σ ε α}
  {F : β → Ending ε α → List Call → Prop}

theorem LogsFrom.bind {s : Session σ} (ha : a.LogsFrom s P) (hf : ∀ x, (f x).Logs (F x))
    (hvalue : ∀ x new r new', P (.ok (.ok x)) new → F x r new' → Q r (new ++ new'))
    (hfailure : ∀ e new, P (.ok (.error e)) new → Q (.ok (.error e)) new)
    (hfault : ∀ x new, P (.error x) new → Q (.error x) new) : (a >>= f).LogsFrom s Q := by
  obtain ⟨new, hnew, hp⟩ := ha
  unfold LogsFrom
  rw [run_bind]
  rcases h : a.run s with ⟨_ | _ | x, s'⟩ <;> rw [h] at hnew hp
  · exact ⟨new, hnew, hfault _ _ hp⟩
  · exact ⟨new, hnew, hfailure _ _ hp⟩
  · obtain ⟨new', hnew', hf'⟩ := hf x s'
    refine ⟨new ++ new', ?_, hvalue _ _ _ _ hp hf'⟩
    simp only at hnew ⊢
    rw [hnew', hnew, List.append_assoc]

theorem LogsFrom.map {s : Session σ} (ha : a.LogsFrom s P) (g : β → α) :
    (do
      let x ← a
      pure (g x) : Act σ ε α).LogsFrom s fun r new => ∃ r', P r' new ∧ r = r'.map (·.map g) := by
  obtain ⟨new, hnew, hp⟩ := ha
  unfold LogsFrom
  rw [run_bind]
  rcases h : a.run s with ⟨_ | _ | x, s'⟩ <;> rw [h] at hnew hp <;> exact ⟨new, hnew, _, hp, rfl⟩

end

end Act

end

end TriBench
