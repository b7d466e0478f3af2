import TriBench.Proofs.Session.Log

/-!
# Logs that account for endings

Every command before the last one of a step has succeeded. The last one has failed iff the step
fails with the failure of a command, and then with that one. Faults come from a command that meets
one, or from a configured extension with a slash in it.
-/

namespace TriBench

def Call.Succeeded (c : Call) : Prop := ∃ output, c.answer = .ok output

section
variable {σ ε δ α β : Type}

def Setting.CanMeet (st : Setting σ) (f : Fault) : Prop :=
  (∃ c files tools, (st.toolbox.invoke c files tools).1 = .error f) ∨
    ∃ extension ∈ [st.config.sourceExtension, st.config.moduleExtension],
      '/' ∈ extension ∧ f = .slashInExtension extension

/-- What a log says about the ending of a step, of whose failures `tool?` gives the command failure
in them, if there is one. -/
inductive Accounts (st : Setting σ) (tool? : ε → Option ToolFailure) : Ending ε α → List Call → Prop
  | value {x : α} {new : List Call} (h : ∀ c ∈ new, c.Succeeded) : Accounts st tool? (.ok (.ok x)) new
  | fault {f : Fault} {new : List Call} (hf : st.CanMeet f) (h : ∀ c ∈ new, c.Succeeded) :
    Accounts st tool? (.error f) new
  | failure {e : ε} {new : List Call} (he : tool? e = none) (h : ∀ c ∈ new, c.Succeeded) :
    Accounts st tool? (.ok (.error e)) new
  | toolFailure {e : ε} {f : ToolFailure} {c : Command} {new : List Call} (he : tool? e = some f)
    (h : ∀ c ∈ new, c.Succeeded) : Accounts st tool? (.ok (.error e)) (new ++ [⟨c, .error f⟩])

namespace Accounts
variable {st : Setting σ} {tool? : ε → Option ToolFailure}

theorem prepend {r : Ending ε α} {old new : List Call} (ho : ∀ c ∈ old, c.Succeeded)
    (h : Accounts st tool? r new) :
    Accounts st tool? r (old ++ new) := by
  have happ : ∀ {new : List Call}, (∀ c ∈ new, c.Succeeded) → ∀ c ∈ old ++ new, c.Succeeded := by
    intro new hn c hc
    rcases List.mem_append.1 hc with hc | hc
    · exact ho c hc
    · exact hn c hc
  cases h with
  | value h => exact value (happ h)
  | fault hf h => exact fault hf (happ h)
  | failure he h => exact failure he (happ h)
  | toolFailure he h => rw [← List.append_assoc]; exact toolFailure he (happ h)

theorem succeeded {x : α} {new : List Call} (h : Accounts st tool? (.ok (.ok x)) new) :
    ∀ c ∈ new, c.Succeeded := by
  cases h with
  | value h => exact h

theorem canMeet {f : Fault} {new : List Call} (h : Accounts st tool? (.error f : Ending ε α) new) :
    st.CanMeet f := by
  cases h with
  | fault hf _ => exact hf

theorem of_failure {e : ε} {new : List Call} (h : Accounts st tool? (.ok (.error e) : Ending ε β) new) :
    Accounts st tool? (.ok (.error e) : Ending ε α) new := by
  cases h with
  | failure he h => exact failure he h
  | toolFailure he h => exact toolFailure he h

theorem of_fault {f : Fault} {new : List Call} (h : Accounts st tool? (.error f : Ending ε β) new) :
    Accounts st tool? (.error f : Ending ε α) new := by
  cases h with
  | fault hf h => exact fault hf h

theorem mapError {wrap : ε → δ} {tool'? : δ → Option ToolFailure} (hw : ∀ e, tool'? (wrap e) = tool? e)
    {r : Ending ε α} {new : List Call} (h : Accounts st tool? r new) :
    Accounts st tool'? (r.map (·.mapError wrap)) new := by
  cases h with
  | value h => exact value h
  | fault hf h => exact fault hf h
  | failure he h => exact failure ((hw _).trans he) h
  | toolFailure he h => exact toolFailure ((hw _).trans he) h

end Accounts

namespace Act

def Accounted (a : Act σ ε α) (st : Setting σ) (tool? : ε → Option ToolFailure)
    (P : Command → Prop) : Prop :=
  a.Logs fun r new => Accounts st tool? r new ∧ ∀ c ∈ new, P c.command

namespace Accounted
variable {st : Setting σ} {tool? : ε → Option ToolFailure} {P : Command → Prop}

theorem pure (x : α) : (pure x : Act σ ε α).Accounted st tool? P :=
  Logs.pure ⟨.value (by simp), by simp⟩

theorem throw {e : ε} (he : tool? e = none) : (throw e : Act σ ε α).Accounted st tool? P :=
  Logs.throw ⟨.failure he (by simp), by simp⟩

theorem bind {a : Act σ ε β} {f : β → Act σ ε α} (ha : a.Accounted st tool? P)
    (hf : ∀ x, (f x).Accounted st tool? P) : (a >>= f).Accounted st tool? P := by
  refine fun s => LogsFrom.bind (ha s) hf ?_ ?_ ?_
  · intro x new r new' ⟨hx, hp⟩ ⟨hr, hp'⟩
    refine ⟨hr.prepend hx.succeeded, fun c hc => ?_⟩
    rcases List.mem_append.1 hc with hc | hc
    · exact hp c hc
    · exact hp' c hc
  · exact fun e new ⟨h, hp⟩ => ⟨h.of_failure, hp⟩
  · exact fun f new ⟨h, hp⟩ => ⟨h.of_fault, hp⟩

theorem orElseFail {a : Act σ ε α} {wrap : ε → δ} {tool'? : δ → Option ToolFailure}
    (ha : a.Accounted st tool? P)
    (hw : ∀ e, tool'? (wrap e) = tool? e) : (a.orElseFail wrap).Accounted st tool'? P := by
  intro s
  obtain ⟨new, hnew, h, hp⟩ := ha s
  unfold LogsFrom
  rw [run_orElseFail]
  exact ⟨new, hnew, h.mapError hw, hp⟩

theorem of_run {a : Act σ ε α} (h : ∀ s, ∃ x s', a.run s = (.ok (.ok x), s') ∧ s'.calls = s.calls) :
    a.Accounted st tool? P := by
  intro s
  obtain ⟨x, s', hr, hc⟩ := h s
  unfold LogsFrom
  rw [hr]
  exact ⟨[], by simpa using hc, .value (by simp), by simp⟩

theorem get : (get : Act σ ε (Session σ)).Accounted st tool? P :=
  of_run fun s => ⟨s, s, rfl, rfl⟩

theorem withExtension {p : Path} {extension : Text}
    (h : '/' ∈ extension → extension ∈ [st.config.sourceExtension, st.config.moduleExtension]) :
    (withExtension p extension : Act σ ε Path).Accounted st tool? P := by
  by_cases hs : '/' ∈ extension
  · rw [withExtension_of_slash hs]
    exact fun s => ⟨[], by simp, .fault (.inr ⟨extension, h hs, hs, rfl⟩) (by simp), by simp⟩
  · rw [withExtension_of_no_slash hs]
    exact pure _

theorem report (blanks : Nat) (word rest : Text) :
    (st.report blanks word rest : Act σ ε Unit).Accounted st tool? P := by
  refine of_run fun s => ?_
  obtain ⟨printed, h⟩ := st.run_report blanks word rest s
  exact ⟨_, _, h, rfl⟩

theorem makeDirectories (p : Path) :
    (Setting.makeDirectories p : Act σ IoError Unit).Accounted st (fun _ => none) P := by
  intro s
  unfold LogsFrom
  rw [Setting.run_makeDirectories]
  refine ⟨[], by simp, ?_, by simp⟩
  rcases (s.files.makeDirectories p).1 with _ | _
  · exact .failure rfl (by simp)
  · exact .value (by simp)

theorem makeParent {p : Path} {wrap : Path → IoError → ε} (hw : ∀ q e, tool? (wrap q e) = none) :
    (Setting.makeParent p wrap : Act σ ε Unit).Accounted st tool? P := by
  unfold Setting.makeParent
  split
  · exact pure _
  · exact (makeDirectories _).orElseFail (hw _)

theorem invoke {c : Command} (hc : P c) : (st.invoke c).Accounted st some P := by
  intro s
  unfold LogsFrom
  rw [Setting.run_invoke]
  rcases h : st.toolbox.invoke c s.files s.tools with ⟨f | answer, files, tools⟩
  · exact ⟨[], by simp, .fault (.inl ⟨c, s.files, s.tools, by rw [h]⟩) (by simp), by simp⟩
  · refine ⟨[⟨c, answer⟩], rfl, ?_, by simpa using hc⟩
    cases answer with
    | error e =>
      change Accounts st some (.ok (.error e)) ([] ++ [⟨c, .error e⟩])
      exact .toolFailure rfl (by simp)
    | ok output => exact .value (by simp [Call.Succeeded])

end Accounted

end Act

end

end TriBench
