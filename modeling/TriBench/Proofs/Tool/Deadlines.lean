import TriBench.Shell.Host
import TriBench.Tool.Invocation

/-!
# Deadlines

The only fault of an invocation is a deadline that the clock cannot tell. Main statements: `aborted_run`, and
`fault_of_timed`, there is none as long as the time limit fits at the latest time at which a command is given.
-/

namespace TriBench

namespace Invocation
variable {elevation : Text} {c : Command} {s : State} {o : Observation} {os : List Observation} {f : Fault}

theorem aborted_step (h : (step elevation c s o).phase = .aborted f) :
    s.phase = .aborted f ∨ o = .deadline false ∧ f = .deadlineOverflow := by
  unfold step at h
  dsimp only at h
  split at h
  case h_5 =>
    cases h
    exact .inr ⟨rfl, rfl⟩
  case h_20 => exact .inl h
  all_goals cases h

theorem aborted_foldl (h : (os.foldl (step elevation c) s).phase = .aborted f) :
    s.phase = .aborted f ∨ .deadline false ∈ os ∧ f = .deadlineOverflow := by
  induction os generalizing s with
  | nil => exact .inl h
  | cons o os ih =>
    rcases ih h with h | ⟨hmem, hf⟩
    · rcases aborted_step h with h | ⟨rfl, hf⟩
      · exact .inl h
      · exact .inr ⟨List.mem_cons_self .., hf⟩
    · exact .inr ⟨List.mem_cons_of_mem o hmem, hf⟩

theorem aborted_run (h : (run elevation c os).phase = .aborted f) :
    .deadline false ∈ os ∧ f = .deadlineOverflow :=
  (aborted_foldl h).resolve_left fun h => by cases h

def SeesClock (now timeout : Nat) (os : List Observation) : Prop :=
  ∀ fits, .deadline fits ∈ os → fits = deadlineFits now timeout

theorem deadlineFits_mono {now latest timeout : Nat} (hnow : now ≤ latest)
    (h : deadlineFits latest timeout = true) :
    deadlineFits now timeout = true := by
  unfold deadlineFits at h ⊢
  rw [decide_eq_true_eq] at h ⊢
  have hle : (now + timeout) / 1000 ≤ (latest + timeout) / 1000 :=
    Nat.div_le_div_right (Nat.add_le_add_right hnow timeout)
  exact Nat.le_trans hle h

end Invocation

/-- Commands are given by invocations, until some time by the clock: a fault of a command is that of
an invocation. -/
def Toolbox.Timed {σ : Type} (t : Toolbox σ) (elevation : Text) (latest : Nat) : Prop :=
  ∀ c files tools f, (t.invoke c files tools).1 = .error f → ∃ now ≤ latest, ∃ os,
    Invocation.SeesClock now c.timeout os ∧ (Invocation.run elevation c os).phase = .aborted f

theorem Toolbox.fault_of_timed {σ : Type} {t : Toolbox σ} {elevation : Text} {latest : Nat}
    (h : t.Timed elevation latest) {c : Command} {files : FileSystem} {tools : σ} {f : Fault}
    (hf : (t.invoke c files tools).1 = .error f) :
    f = .deadlineOverflow ∧ Invocation.deadlineFits latest c.timeout = false := by
  obtain ⟨now, hnow, os, hsees, habort⟩ := h c files tools f hf
  obtain ⟨hmem, rfl⟩ := Invocation.aborted_run habort
  refine ⟨rfl, ?_⟩
  rw [Bool.eq_false_iff]
  intro hfits
  have hfalse := hsees false hmem
  rw [Invocation.deadlineFits_mono hnow hfits] at hfalse
  cases hfalse

namespace Shell.Host

theorem deadline_not_mem_idle (fits : Bool) (time : Nat) : .deadline fits ∉ idle time := by
  unfold idle
  intro h
  obtain ⟨os, hos, hmem⟩ := List.mem_flatten.1 h
  rw [List.eq_of_mem_replicate hos] at hmem
  simp at hmem

theorem deadline_not_mem_observed (fits : Bool) (timeout : Nat) (t : Trace) :
    .deadline fits ∉ observed timeout t := by
  unfold observed
  dsimp only
  split <;> simp [deadline_not_mem_idle]

/-- The host gives all commands at one time. -/
theorem timed (elevation : Text) : (toolbox elevation).Timed elevation startMillis := by
  intro c files tools f hf
  have hsees : Invocation.SeesClock startMillis c.timeout (observations files elevation c).1 := by
    intro fits hmem
    unfold observations at hmem
    dsimp only at hmem
    split at hmem
    · split at hmem
      · simp at hmem
      · split at hmem <;> simp_all [deadline_not_mem_observed]
    · simp at hmem
  refine ⟨startMillis, Nat.le_refl _, _, hsees, ?_⟩
  change (invoke elevation c files).1 = .error f at hf
  unfold invoke at hf
  dsimp only at hf
  split at hf
  · cases hf
  · rename_i hphase
    cases hf
    exact hphase
  · cases hf

end Shell.Host

end TriBench
