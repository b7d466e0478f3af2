import Mathlib
import TriBench.Proofs.Component.Selection
import TriBench.Tool.Rules

/-!
# Fresh clones

A clone has no sparse selection before it is set up, and the set-up is remembered in the session and
not with the working copy. Main statement: `clone_set_up_iff`, a fetch that clones sets its clone up
before use unless a set-up has succeeded in an earlier fetch.
-/

namespace TriBench.Component

section
variable {σ : Type} (st : Setting σ)

def UsesSelection (c : Call) : Prop := c.command = listCommand st ∨ ∃ names, c.command = setCommand st names

def Clones (calls : List Call) : Prop := ∃ answer, ⟨cloneCommand st, answer⟩ ∈ calls

/-- Whatever uses the selection comes after a clone that has succeeded, and after the set-up of that clone. -/
def SetUpBeforeUse (calls : List Call) : Prop :=
  ∀ before use after, calls = before ++ use :: after → UsesSelection st use →
    ∃ o o', [⟨cloneCommand st, .ok o⟩, ⟨initCommand st, .ok o'⟩].Sublist before

variable {st} {component : Text} {selection : List Text}

/-! ## Calls and their steps -/

theorem usesSelection_iff {step : Step} {answer : Answer} :
    UsesSelection st ⟨step.command st component selection, answer⟩ ↔ step = .list ∨ step = .set := by
  constructor
  · rintro (hlist | ⟨names, hset⟩)
    · have hlist : step.command st component selection = Step.list.command st component selection := hlist
      exact .inl (Step.eq_of_command hlist)
    · exact .inr (Step.eq_set_of_command _ _ _ hset)
  · rintro (rfl | rfl)
    · exact .inl rfl
    · exact .inr ⟨_, rfl⟩

theorem mem_callsOf_iff {taken : List (Step × Answer)} {step : Step} {answer : Answer} :
    ⟨step.command st component selection, answer⟩ ∈ callsOf st component selection taken ↔
      (step, answer) ∈ taken := by
  constructor
  · intro h
    obtain ⟨⟨step', answer'⟩, ht, hc⟩ := List.mem_map.1 h
    have hstep : step' = step := Step.eq_of_command (congrArg Call.command hc)
    have hanswer : answer' = answer := congrArg Call.answer hc
    exact hstep ▸ hanswer ▸ ht
  · intro h
    exact List.mem_map.2 ⟨_, h, rfl⟩

/-! ## Plans -/

theorem clone_mem_plan {present ready selected : Bool} :
    .clone ∈ plan present ready selected ↔ present = false := by
  revert present ready selected
  decide

theorem init_not_mem_plan {present selected : Bool} : .init ∉ plan present true selected := by
  revert present selected
  decide

variable {present ready : Bool} {files : FileSystem} {ending : Ending FetchError Path} {new : List Call}
  {taken : List (Step × Answer)}

theorem Follows.mem_plan (h : Follows st component present ready files ending new selection taken)
    (step : Step) {answer : Answer} (hmem : ⟨step.command st component selection, answer⟩ ∈ new) :
    step ∈ plan present ready (component ∈ selection) := by
  rw [h.calls, mem_callsOf_iff] at hmem
  exact h.order.subset (List.mem_map_of_mem hmem)

/-- The plan of the first clone begins with the clone and its set-up, and a step that has another after it has
succeeded. -/
theorem Follows.setUpBeforeUse (h : Follows st component false false files ending new selection taken) :
    SetUpBeforeUse st new := by
  intro before use after hnew huse
  rw [h.calls] at hnew
  obtain ⟨earlier, rest, htaken, rfl, hrest⟩ := List.map_eq_append_iff.1 hnew
  obtain ⟨⟨step, answer⟩, later, rfl, rfl, -⟩ := List.map_eq_cons_iff.1 hrest
  have hstep : step = .list ∨ step = .set := usesSelection_iff.1 huse
  have horder : (earlier ++ (step, answer) :: later).map Prod.fst <+: .clone :: .init :: plan true true _ :=
    htaken ▸ h.order
  have hsucceeded : ∀ t ∈ earlier, t.2.isOk := by
    intro t ht
    refine h.succeeded t ?_
    rw [htaken, List.dropLast_append_of_ne_nil (List.cons_ne_nil _ _)]
    exact List.mem_append_left _ ht
  match earlier with
  | [] =>
    have hclone : step = .clone := (List.cons_prefix_cons.1 horder).1
    simp [hclone] at hstep
  | [first] =>
    have hinit : step = .init := (List.cons_prefix_cons.1 (List.cons_prefix_cons.1 horder).2).1
    simp [hinit] at hstep
  | (first, a) :: (second, a') :: earlier =>
    obtain ⟨rfl, hsecond⟩ : first = .clone ∧ _ := List.cons_prefix_cons.1 horder
    obtain ⟨rfl, -⟩ : second = .init ∧ _ := List.cons_prefix_cons.1 hsecond
    have hfirst := hsucceeded (.clone, a) (by simp)
    have hsecond := hsucceeded (.init, a') (by simp)
    cases a with
    | error e => cases hfirst
    | ok o =>
      cases a' with
      | error e => cases hsecond
      | ok o' => exact ⟨o, o', List.Sublist.cons_cons _ (List.Sublist.cons_cons _ (List.nil_sublist _))⟩

/-- **When a clone is set up.** For every history of fetches: one that clones gives the set-up of
its clone, and has it succeed, before it lists or sets the selection, if no set-up has succeeded in
an earlier fetch. If one has, there is no other, and a clone that replaces the first working copy is
used as it is. -/
theorem clone_set_up_iff (st : Setting σ) (files : FileSystem) (tools : σ) (requests : List (Request σ))
    (i : Fin (history st { files, tools } requests).length)
    (hclones : Clones st ((history st { files, tools } requests).get i).calls) :
    let fs := history st { files, tools } requests
    let f := fs.get i
    let ready := ∃ g ∈ fs.take i, ∃ o, ⟨initCommand st, .ok o⟩ ∈ g.calls
    (SetUpBeforeUse st f.calls ↔ ¬ ready ∨ ∀ c ∈ f.calls, ¬ UsesSelection st c) ∧
      (ready → ∀ answer, ⟨initCommand st, answer⟩ ∉ f.calls) := by
  intro fs f ready
  obtain ⟨flag, selection, taken, -, hflag, hfollows⟩ := history_follows st { files, tools } requests i
  have hflag : flag = true ↔ ready := by simpa using hflag
  have hpresent : f.before.files.has st.config.repository.workingCopy = false := by
    obtain ⟨answer, hclone⟩ := hclones
    exact clone_mem_plan.1 (hfollows.mem_plan .clone hclone)
  rw [hpresent] at hfollows
  cases flag with
  | false =>
    have hready : ¬ ready := fun h => by cases hflag.2 h
    exact ⟨iff_of_true hfollows.setUpBeforeUse (.inl hready), fun h => absurd h hready⟩
  | true =>
    have hready : ready := hflag.1 rfl
    have hinit : ∀ answer, ⟨initCommand st, answer⟩ ∉ f.calls := fun answer h =>
      init_not_mem_plan (hfollows.mem_plan .init h)
    refine ⟨⟨fun h => .inr fun c hc huse => ?_, fun h => ?_⟩, fun _ => hinit⟩
    · obtain ⟨before, after, hcalls⟩ := List.append_of_mem hc
      obtain ⟨o, o', hsub⟩ := h before c after hcalls huse
      have hmem : ⟨initCommand st, .ok o'⟩ ∈ before := hsub.subset (by simp)
      exact hinit (.ok o') (hcalls ▸ List.mem_append_left _ hmem)
    · have hunused := h.resolve_left fun h => h hready
      intro before use after hcalls huse
      exact absurd huse (hunused use (hcalls ▸ by simp))

end

/-! ## A working copy that is removed -/

def cloning : Setting (List Rule) :=
  { config := {}, toolbox := Rules.toolbox id, quiet := true, colours := false }

def cloningRule : Rule :=
  { fragment := "clone", remaining := none
    directories := [cloning.config.repository.workingCopy], reply := .output {} }

def withoutCopy (s : Session (List Rule)) : Session (List Rule) :=
  match s.files.removeTree cloning.config.repository.workingCopy with
  | .ok files => { s with files }
  | .error _ => s

def interrupted : List (Fetched (List Rule)) :=
  history cloning { files := .emptyAt [], tools := [cloningRule] } [{ component := "a_grate" },
    { component := "b_grate", meanwhile := withoutCopy
      keepsReady := by intro s; unfold withoutCopy; split <;> rfl }]

theorem clone_cloning (component : Text) : clone cloning component = (do
    Setting.makeParent cloning.config.repository.workingCopy .directory
    let _ ← (cloning.invoke (cloneCommand cloning)).orElseFail (.cloning component)) := rfl

theorem commands_interrupted : interrupted.map (fun f => f.calls.map Call.command) =
    [[cloneCommand cloning, initCommand cloning, listCommand cloning, setCommand cloning ["a_grate"],
        checkoutCommand cloning, pullCommand cloning],
      [cloneCommand cloning, listCommand cloning, setCommand cloning ["b_grate"], checkoutCommand cloning,
        pullCommand cloning]] := by
  unfold interrupted history history history fetched
  -- without progress lines there is no path to quote
  rw [fetch, fetch, ensureWorkingCopy, ensureWorkingCopy, clone_cloning, clone_cloning]
  cbv

theorem second_of_interrupted :
    ∃ f g clone list rest, interrupted = [f, g] ∧ g.calls = clone :: list :: rest ∧
    clone.command = cloneCommand cloning ∧ list.command = listCommand cloning := by
  obtain ⟨f, gs, hfs, -, hgs⟩ := List.map_eq_cons_iff.1 commands_interrupted
  obtain ⟨g, gs, rfl, hg, hnil⟩ := List.map_eq_cons_iff.1 hgs
  obtain ⟨clone, calls, hcalls, hclone, hrest⟩ := List.map_eq_cons_iff.1 hg
  obtain ⟨list, rest, rfl, hlist, -⟩ := List.map_eq_cons_iff.1 hrest
  rw [List.map_eq_nil_iff.1 hnil] at hfs
  exact ⟨f, g, clone, list, rest, hfs, hcalls, hclone, hlist⟩

theorem second_clone_not_set_up :
    ∃ f ∈ interrupted, Clones cloning f.calls ∧ ¬ SetUpBeforeUse cloning f.calls := by
  obtain ⟨f, g, ⟨c, answer⟩, list, rest, hfs, hcalls, rfl, hlist⟩ := second_of_interrupted
  refine ⟨g, by simp [hfs], ⟨answer, by simp [hcalls]⟩, fun h => ?_⟩
  obtain ⟨o, o', hsub⟩ := h [_] list rest hcalls (.inl hlist)
  simpa using hsub.length_le

theorem clone_set_up_iff_interrupted :
    ∃ i : Fin interrupted.length, Clones cloning (interrupted.get i).calls ∧
    let f := interrupted.get i
    let ready := ∃ g ∈ interrupted.take i, ∃ o, ⟨initCommand cloning, .ok o⟩ ∈ g.calls
    (SetUpBeforeUse cloning f.calls ↔ ¬ ready ∨ ∀ c ∈ f.calls, ¬ UsesSelection cloning c) ∧
      (ready → ∀ answer, ⟨initCommand cloning, answer⟩ ∉ f.calls) := by
  obtain ⟨f, g, ⟨c, answer⟩, list, rest, hfs, hcalls, rfl, -⟩ := second_of_interrupted
  have hlength : 1 < interrupted.length := by simp [hfs]
  have hget : interrupted.get ⟨1, hlength⟩ = g := by simp [hfs]
  have hclones : Clones cloning (interrupted.get ⟨1, hlength⟩).calls := by
    rw [hget]
    exact ⟨answer, by simp [hcalls]⟩
  exact ⟨⟨1, hlength⟩, hclones, clone_set_up_iff _ _ _ _ _ hclones⟩

end TriBench.Component
