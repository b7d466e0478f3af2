import TriBench.Proofs.Session.Accounts

/-!
# Steps by the answers to their commands

A step that gives one command ends as the answer decides. Of longer steps it is often enough to know
the log when they yield a value: each command that the value depends on has been answered.
-/

namespace TriBench

section
variable {σ ε δ α β : Type}

namespace Act

/-! ## Steps that give one command -/

/-- The log of a step that gives one command and ends as its answer decides, unless a fault comes
before. -/
def Gives (st : Setting σ) (c : Command) (decide : Answer → Except ε α) (r : Ending ε α)
    (new : List Call) : Prop :=
  (∃ answer, r = .ok (decide answer) ∧ new = [⟨c, answer⟩]) ∨ ∃ f, st.CanMeet f ∧ r = .error f ∧ new = []

theorem gives_invoke (st : Setting σ) (c : Command) : (st.invoke c).Logs (Gives st c id) := by
  intro s
  unfold LogsFrom
  rw [Setting.run_invoke]
  rcases h : st.toolbox.invoke c s.files s.tools with ⟨f | answer, files, tools⟩
  · exact ⟨[], by simp, .inr ⟨f, .inl ⟨c, s.files, s.tools, by rw [h]⟩, rfl, rfl⟩⟩
  · exact ⟨[⟨c, answer⟩], rfl, .inl ⟨answer, rfl, rfl⟩⟩

theorem gives_map {st : Setting σ} {c : Command} {decide : Answer → Except ε α} {a : Act σ ε α}
    {s : Session σ}
    (ha : a.LogsFrom s (Gives st c decide)) (g : α → β) :
    (do
      let x ← a
      pure (g x) : Act σ ε β).LogsFrom s (Gives st c fun answer => (decide answer).map g) := by
  obtain ⟨new, hnew, r, h, hr⟩ := ha.map g
  refine ⟨new, hnew, ?_⟩
  rw [hr]
  rcases h with ⟨answer, rfl, rfl⟩ | ⟨f, hf, rfl, rfl⟩
  · exact .inl ⟨answer, rfl, rfl⟩
  · exact .inr ⟨f, hf, rfl, rfl⟩

theorem gives_orElseFail {st : Setting σ} {c : Command} {decide : Answer → Except ε α}
    {a : Act σ ε α} {s : Session σ}
    (ha : a.LogsFrom s (Gives st c decide)) (wrap : ε → δ) :
    (a.orElseFail wrap).LogsFrom s (Gives st c fun answer => (decide answer).mapError wrap) := by
  obtain ⟨new, hnew, h⟩ := ha
  unfold LogsFrom
  rw [run_orElseFail]
  refine ⟨new, hnew, ?_⟩
  rcases h with ⟨answer, hr, rfl⟩ | ⟨f, hf, hr, rfl⟩
  · exact .inl ⟨answer, by rw [hr]; rfl, rfl⟩
  · exact .inr ⟨f, hf, by rw [hr]; rfl, rfl⟩

theorem gives_report_invoke (st : Setting σ) (c : Command) (wrap : ToolFailure → ε) (g : ToolOutput → α)
    (blanks : Nat) (word rest : Text) :
    (do
      st.report blanks word rest
      let output ← (st.invoke c).orElseFail wrap
      pure (g output) : Act σ ε α).Logs (Gives st c fun answer => (answer.mapError wrap).map g) := by
  intro s
  obtain ⟨printed, h⟩ := st.run_report (ε := ε) blanks word rest s
  unfold LogsFrom
  rw [run_bind, h]
  exact gives_map (gives_orElseFail (gives_invoke st c { s with printed }) wrap) g

/-! ## Steps that yield a value -/

def Yields (a : Act σ ε α) (Q : α → List Call → Prop) : Prop :=
  a.Logs fun r new => ∀ x, r = .ok (.ok x) → Q x new

namespace Yields
variable {Q : α → List Call → Prop}

theorem pure {x : α} (h : Q x []) : (pure x : Act σ ε α).Yields Q :=
  Logs.pure fun y hy => by cases hy; exact h

theorem bind {R : β → List Call → Prop} {a : Act σ ε β} {f : β → Act σ ε α} (ha : a.Yields R)
    (hf : ∀ x new, R x new → (f x).Yields fun y new' => Q y (new ++ new')) :
    (a >>= f).Yields Q := by
  intro s
  obtain ⟨new, hnew, hx⟩ := ha s
  unfold LogsFrom
  rw [run_bind]
  rcases h : a.run s with ⟨_ | _ | x, s'⟩ <;> rw [h] at hnew hx
  · exact ⟨new, hnew, fun _ hy => by cases hy⟩
  · exact ⟨new, hnew, fun _ hy => by cases hy⟩
  · obtain ⟨new', hnew', hy⟩ := hf x new (hx x rfl) s'
    refine ⟨new ++ new', ?_, hy⟩
    dsimp only at hnew ⊢
    rw [hnew', hnew, List.append_assoc]

end Yields

end Act

end

end TriBench
