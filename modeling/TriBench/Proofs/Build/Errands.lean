import TriBench.Proofs.Build.Alike

/-!
# Errands

What a step has given to the tools, each command with its purpose and its answer. A step stops at
the first command that fails, and fails with what is recorded of it. Main statement:
`Act.Alike.errands`.
-/

namespace TriBench

structure Errand where
  purpose : Purpose
  answer : Answer

section
variable {σ : Type}

def Errand.call (st : Setting σ) (x : Errand) : Call := ⟨x.purpose.command st, x.answer⟩

def Errand.failure? (x : Errand) : Option Failure :=
  match x.answer with
  | .ok _ => none
  | .error e => some (x.purpose.failure e)

section
variable {ε α : Type}

def Ending.toolFailures (wrap : ε → Failure) (r : Ending ε α) : List Failure :=
  match r with
  | .ok (.error e) => [wrap e].filter fun f => f.tool?.isSome
  | _ => []

structure Ending.After (st : Setting σ) (b : Benchmark) (wrap : ε → Failure) (Q : α → Prop) (r : Ending ε α)
    (new : List Call) (errands : List Errand) : Prop where
  calls : new = errands.map (Errand.call st)
  serve : ∀ x ∈ errands, x.purpose.Serves st b
  failed : errands.filterMap Errand.failure? = r.toolFailures wrap
  value : ∀ x, r = .ok (.ok x) → Q x

end

variable {ε δ α β : Type} {st : Setting σ} {b : Benchmark}

namespace Ending.After

theorem of_none {wrap : ε → Failure} {Q : α → Prop} {r : Ending ε α} (hr : r.toolFailures wrap = [])
    (hv : ∀ x, r = .ok (.ok x) → Q x) : Ending.After st b wrap Q r [] [] :=
  ⟨rfl, by simp, by rw [hr]; rfl, hv⟩

theorem of_one {wrap : ε → Failure} {Q : α → Prop} {r : Ending ε α} {x : Errand} (hx : x.purpose.Serves st b)
    (hr : x.failure?.toList = r.toolFailures wrap) (hv : ∀ y, r = .ok (.ok y) → Q y) :
    Ending.After st b wrap Q r [x.call st] [x] := by
  refine ⟨rfl, by simpa using hx, ?_, hv⟩
  rw [← hr]
  cases h : x.failure? <;> simp [h]

/-- Before anything else is done, no command has failed. -/
theorem append {wrap : ε → Failure} {P : β → Prop} {Q : α → Prop} {y : β} {r : Ending ε α}
    {new new' : List Call} {xs ys : List Errand} (h : Ending.After st b wrap P (.ok (.ok y)) new xs)
    (h' : Ending.After st b wrap Q r new' ys) :
    Ending.After st b wrap Q r (new ++ new') (xs ++ ys) where
  calls := by rw [h.calls, h'.calls, List.map_append]
  serve x hx := by
    rcases List.mem_append.1 hx with hx | hx
    · exact h.serve x hx
    · exact h'.serve x hx
  failed := by
    rw [List.filterMap_append, h.failed, h'.failed]
    rfl
  value := h'.value

theorem mapError {wrap : δ → Failure} {Q : α → Prop} {g : ε → δ} {r : Ending ε α} {new : List Call}
    {xs : List Errand} (h : Ending.After st b (fun e => wrap (g e)) Q r new xs) :
    Ending.After st b wrap Q (r.map (·.mapError g)) new xs := by
  refine ⟨h.calls, h.serve, ?_, ?_⟩
  · rw [h.failed]
    rcases r with f | e | x <;> rfl
  · intro x hx
    rcases r with f | e | y
    · cases hx
    · cases hx
    · cases hx
      exact h.value x rfl

end Ending.After

theorem Act.Alike.errands {v : Setting.Variant σ} {wrap : ε → Failure} {Q : α → Prop} {a a' : Act σ ε α}
    (h : Act.Alike st v b wrap Q a a') : a.Logs fun r new => ∃ xs, Ending.After st b wrap Q r new xs := by
  induction h with
  | pure h =>
    refine Logs.pure ⟨[], .of_none rfl ?_⟩
    rintro _ ⟨⟩
    exact h
  | throw h => exact Logs.throw ⟨[], .of_none (by simp [Ending.toolFailures, h]) fun x hx => by cases hx⟩
  | slash hmem h => exact fun s => ⟨[], by simp, [], .of_none rfl fun x hx => by cases hx⟩
  | bind ha hf iha ihf =>
    intro s
    obtain ⟨new, hnew, xs, hxs⟩ := iha s
    unfold LogsFrom
    rw [run_bind]
    rcases hr : Act.run _ s with ⟨f | e | x, s'⟩ <;> rw [hr] at hnew hxs
    · exact ⟨new, hnew, xs, hxs.calls, hxs.serve, hxs.failed, fun x hx => by cases hx⟩
    · exact ⟨new, hnew, xs, hxs.calls, hxs.serve, hxs.failed, fun x hx => by cases hx⟩
    · obtain ⟨new', hnew', ys, hys⟩ := ihf x (hxs.value x rfl) s'
      refine ⟨new ++ new', ?_, xs ++ ys, hxs.append hys⟩
      dsimp only at hnew ⊢
      rw [hnew', hnew, List.append_assoc]
  | orElseFail ha iha =>
    intro s
    obtain ⟨new, hnew, xs, hxs⟩ := iha s
    unfold LogsFrom
    rw [run_orElseFail]
    exact ⟨new, hnew, xs, hxs.mapError⟩
  | report blanks word rest =>
    intro s
    obtain ⟨printed, h⟩ := st.run_report blanks word rest s
    unfold LogsFrom
    rw [h]
    exact ⟨[], by simp, [], .of_none rfl fun _ _ => trivial⟩
  | look question k k' hk ih =>
    intro s
    unfold LogsFrom
    rw [run_bind, run_get]
    exact ih s.files s
  | makeDirectories hp hw =>
    intro s
    unfold LogsFrom
    rw [Setting.run_makeDirectories]
    refine ⟨[], by simp, [], .of_none ?_ fun _ _ => trivial⟩
    cases (s.files.makeDirectories _).1 with
    | error e => simp [Ending.toolFailures, hw]
    | ok => rfl
  | @setUp component hc =>
    intro s
    unfold LogsFrom
    rw [Component.run_setUp]
    split
    · exact ⟨[], by simp, [], .of_none rfl fun _ _ => trivial⟩
    · rcases st.toolbox.invoke (Component.initCommand st) s.files s.tools with ⟨f | e | o, files, tools⟩
      · exact ⟨[], by simp, [], .of_none rfl fun _ _ => trivial⟩
      · exact ⟨_, rfl, _,
          .of_one (x := ⟨.fetch .init component [], .error e⟩) (.fetch hc .init []) rfl fun _ _ => trivial⟩
      · exact ⟨_, rfl, _,
          .of_one (x := ⟨.fetch .init component [], .ok o⟩) (.fetch hc .init []) rfl fun _ _ => trivial⟩
  | @invoke u hu wrap hw =>
    intro s
    unfold LogsFrom
    rw [Setting.run_invoke]
    rcases st.toolbox.invoke (u.command st) s.files s.tools with ⟨f | e | o, files, tools⟩
    · exact ⟨[], by simp, [], .of_none rfl fun _ _ => trivial⟩
    · refine ⟨_, rfl, _, .of_one (x := ⟨u, .error e⟩) hu ?_ fun _ _ => trivial⟩
      simp [Errand.failure?, Ending.toolFailures, hw, u.tool?_failure]
    · exact ⟨_, rfl, _, .of_one (x := ⟨u, .ok o⟩) hu rfl fun _ _ => trivial⟩

end

end TriBench
