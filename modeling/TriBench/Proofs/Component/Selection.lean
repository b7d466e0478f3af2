import TriBench.Proofs.Component.Protocol
import TriBench.Proofs.Text.Lines
import TriBench.Proofs.Text.Utf8

/-!
# The selection only grows

The sparse selection is kept by version control. A fetch reads it, and replaces it by a longer one if the
component is missing. Main statement: `selection_grows`, along a history of fetches each selection begins with
the one before, however many commands fail.
-/

namespace TriBench.Component

section
variable {σ : Type}

/-- The tools have a version control client that keeps a selection: it lists the selection line by line and
takes the arguments of `set` for the new one. Nothing else changes the selection, and no failure does. -/
structure KeepsSelection (st : Setting σ) (selection : σ → List Text) : Prop where
  lists : ∀ files tools o files' tools',
    st.toolbox.invoke (listCommand st) files tools = (.ok (.ok o), files', tools') →
      o.stdout = (Text.ofLines (selection tools)).toBytes
  sets : ∀ names files tools o files' tools',
    st.toolbox.invoke (setCommand st names) files tools = (.ok (.ok o), files', tools') →
    selection tools' = names
  failed : ∀ c files tools r files' tools', st.toolbox.invoke c files tools = (r, files', tools') →
    (∀ o, r ≠ .ok (.ok o)) → selection tools' = selection tools
  others : ∀ c files tools r files' tools', st.toolbox.invoke c files tools = (r, files', tools') →
    (∀ names, c ≠ setCommand st names) → selection tools' = selection tools

def Grows (component : Text) (old new : List Text) : Prop :=
  new = old ∨ component ∉ old ∧ new = old ++ [component]

/-- A fetch has come through the selection of the component. -/
inductive Selects (component : Text) : Ending FetchError Path → Prop
  | settled {r : Ending FetchError Path} (h : Settled component r) : Selects component r
  | outdated (cause : ToolFailure) : Selects component (.ok (.error (.updating component cause)))

theorem Grows.isEntry {component : Text} {old new : List Text} (h : Grows component old new)
    (hold : ∀ p ∈ old, p.IsEntry) (hc : component.IsEntry) : ∀ p ∈ new, p.IsEntry := by
  rcases h with rfl | ⟨-, rfl⟩
  · exact hold
  · intro p hp
    rcases List.mem_append.1 hp with hp | hp
    · exact hold p hp
    · rw [List.mem_singleton.1 hp]; exact hc

/-! ## Commands that set the selection -/

variable {st : Setting σ} {component : Text}

theorem Step.eq_set_of_command (step : Step) (component : Text) (selected : List Text) {names : List Text}
    (h : step.command st component selected = setCommand st names) : step = set := by
  have hargs := congrArg Command.arguments h
  cases step <;>
    simp [command, cloneCommand, initCommand, listCommand, setCommand, checkoutCommand,
      pullCommand, inWorkingCopy, Setting.command, Command.args] at hargs ⊢

theorem setCommand_injective {names names' : List Text} (h : setCommand st names = setCommand st names') :
    names = names' := by
  have hargs := congrArg Command.arguments h
  simpa [setCommand, inWorkingCopy, Setting.command, Command.args] using hargs

theorem listCommand_ne_setCommand (names : List Text) : listCommand st ≠ setCommand st names := by
  intro h
  cases Step.eq_set_of_command .list [] [] h

section
variable (st) (selection : σ → List Text)

structure Untouched (s s' : Session σ) : Prop where
  kept : selection s'.tools = selection s.tools
  calls : ∃ new, s'.calls = s.calls ++ new ∧ ∀ c ∈ new, ∀ names, c.command ≠ setCommand st names

variable (component) in
structure Advances (s s' : Session σ) : Prop where
  grows : Grows component (selection s.tools) (selection s'.tools)
  calls : ∃ new, s'.calls = s.calls ++ new ∧ ∀ c ∈ new, ∀ names, c.command = setCommand st names →
    component ∉ selection s.tools ∧ names = selection s.tools ++ [component]

end

section
variable {selection : σ → List Text} {s s' s'' : Session σ}

theorem Untouched.advances (h : Untouched st selection s s') : Advances st component selection s s' := by
  obtain ⟨new, hnew, hc⟩ := h.calls
  exact ⟨.inl h.kept, new, hnew, fun c hmem names hset => absurd hset (hc c hmem names)⟩

theorem Untouched.trans (h : Untouched st selection s s') (h' : Advances st component selection s' s'') :
    Advances st component selection s s'' := by
  obtain ⟨new, hnew, hc⟩ := h.calls
  obtain ⟨new', hnew', hc'⟩ := h'.calls
  refine ⟨h.kept ▸ h'.grows, new ++ new', by rw [hnew', hnew, List.append_assoc], ?_⟩
  intro c hmem names hset
  rcases List.mem_append.1 hmem with hmem | hmem
  · exact absurd hset (hc c hmem names)
  · rw [← h.kept]
    exact hc' c hmem names hset

theorem Advances.trans (h : Advances st component selection s s') (h' : Untouched st selection s' s'') :
    Advances st component selection s s'' := by
  obtain ⟨new, hnew, hc⟩ := h.calls
  obtain ⟨new', hnew', hc'⟩ := h'.calls
  refine ⟨?_, new ++ new', by rw [hnew', hnew, List.append_assoc], ?_⟩
  · rw [Grows, h'.kept]
    exact h.grows
  · intro c hmem names hset
    rcases List.mem_append.1 hmem with hmem | hmem
    · exact hc c hmem names hset
    · exact absurd hset (hc' c hmem names)

end

/-! ## The parts of a fetch -/

theorem not_selects {α : Type} {steps : List Step} {r : Ending FetchError α} {taken : List (Step × Answer)}
    {e : FetchError} (h : Carried component steps r taken) (hr : r = .ok (.error e)) (hc : .checkout ∉ steps)
    (hp : .pull ∉ steps) :
    ¬ Selects component (.ok (.error e)) := by
  intro hs
  rcases h.failure_cases hr with ⟨-, p, cause, rfl⟩ | ⟨step, hstep, f, rfl, -⟩
  · cases hs with
    | settled h => cases h
  · cases step with
    | checkout => exact hc hstep
    | pull => exact hp hstep
    | clone | init | list | set =>
      cases hs with
      | settled h => cases h

variable {selection : σ → List Text} (hst : KeepsSelection st selection)
include hst

theorem kept_of_answered {tools tools' : σ} {calls : List Call} (h : Answered st tools calls tools')
    (hc : ∀ c ∈ calls, ∀ names, c.command ≠ setCommand st names) : selection tools' = selection tools := by
  induction h with
  | nil => rfl
  | call hi _ ih =>
    rw [ih fun c hmem => hc c (List.mem_cons_of_mem _ hmem)]
    exact hst.others _ _ _ _ _ _ hi (hc _ (List.mem_cons_self ..))
  | fault hi _ ih =>
    rw [ih hc]
    exact hst.failed _ _ _ _ _ _ hi fun o ho => by cases ho

theorem untouched_of_trace {α : Type} {steps : List Step} (hs : .set ∉ steps) {s : Session σ}
    {selected : List Text} {run : Ending FetchError α × Session σ} {taken : List (Step × Answer)}
    (h : Trace st component selected steps s run taken) : Untouched st selection s run.2 := by
  have hset : ∀ c ∈ callsOf st component selected taken, ∀ names, c.command ≠ setCommand st names := by
    intro c hc names hset
    obtain ⟨t, ht, rfl⟩ := List.mem_map.1 hc
    have hstep : t.1 = .set := Step.eq_set_of_command _ _ _ hset
    exact hs (hstep ▸ h.carried.order.subset (List.mem_map_of_mem ht))
  exact ⟨kept_of_answered hst h.answered hset, _, h.calls, hset⟩

theorem listed_eq {files files' : FileSystem} {tools tools' : σ} {o : ToolOutput}
    (h : st.toolbox.invoke (listCommand st) files tools = (.ok (.ok o), files', tools'))
    (hold : ∀ p ∈ selection tools, p.IsEntry) : listed o = selection tools := by
  rw [listed, hst.lists _ _ _ _ _ h, Utf8.decode_toBytes, Text.trimmed_lines_ofLines hold]

variable (component) in
theorem select_advances {s : Session σ} (hold : ∀ p ∈ selection s.tools, p.IsEntry) :
    let run := (select st component).run s
    Advances st component selection s run.2 ∧ (run.1 = .ok (.ok ()) → component ∈ selection run.2.tools) := by
  have hlist : ∀ answer, ∀ c ∈ [Call.mk (listCommand st) answer], ∀ names,
      c.command ≠ setCommand st names := by
    intro answer c hc names
    rw [List.mem_singleton.1 hc]
    exact listCommand_ne_setCommand names
  unfold select
  rw [Act.run_bind, Setting.run_invoke_orElseFail]
  rcases hl : st.toolbox.invoke (listCommand st) s.files s.tools with ⟨f | e | o, files, tools⟩ <;> dsimp only
  · have hkept := hst.failed _ _ _ _ _ _ hl fun o ho => by cases ho
    exact ⟨Untouched.advances ⟨hkept, [], by simp, by simp⟩, fun h => by cases h⟩
  · have hkept := hst.failed _ _ _ _ _ _ hl fun o ho => by cases ho
    exact ⟨Untouched.advances ⟨hkept, _, rfl, hlist _⟩, fun h => by cases h⟩
  · have hkept := hst.others _ _ _ _ _ _ hl listCommand_ne_setCommand
    have huntouched : Untouched st selection s
        { s with files, tools, calls := s.calls ++ [⟨listCommand st, .ok o⟩] } :=
      ⟨hkept, _, rfl, hlist _⟩
    rw [listed_eq hst hl hold]
    by_cases hc : component ∈ selection s.tools
    · simp only [hc, not_true_eq_false, if_false, Act.run_pure]
      exact ⟨huntouched.advances, fun _ => hkept ▸ hc⟩
    · have hset : ∀ answer,
          ∀ c ∈ [Call.mk (setCommand st (selection s.tools ++ [component])) answer], ∀ names,
          c.command = setCommand st names → component ∉ selection tools ∧
          names = selection tools ++ [component] := by
        intro answer c hmem names h
        rw [List.mem_singleton.1 hmem] at h
        rw [hkept]
        exact ⟨hc, (setCommand_injective h).symm⟩
      simp only [hc, not_false_eq_true, if_true]
      rw [Act.run_bind, Setting.run_invoke_orElseFail]
      rcases hs : st.toolbox.invoke (setCommand st (selection s.tools ++ [component])) files tools with
        ⟨f | e | o', files', tools'⟩ <;> dsimp only
      · have hfailed := hst.failed _ _ _ _ _ _ hs fun o ho => by cases ho
        exact ⟨huntouched.trans ⟨.inl hfailed, [], by simp, by simp⟩, fun h => by cases h⟩
      · have hfailed := hst.failed _ _ _ _ _ _ hs fun o ho => by cases ho
        exact ⟨huntouched.trans ⟨.inl hfailed, _, rfl, hset _⟩, fun h => by cases h⟩
      · have hnew := hst.sets _ _ _ _ _ _ hs
        simp only [Act.run_pure]
        refine ⟨huntouched.trans ⟨.inr ⟨by rw [hkept]; exact hc, by rw [hnew, hkept]⟩, _, rfl, hset _⟩,
          fun _ => ?_⟩
        rw [hnew]
        exact List.mem_append_right _ (List.mem_singleton_self _)

variable (component) in
theorem fetched_advances {s : Session σ} (hold : ∀ p ∈ selection s.tools, p.IsEntry) :
    let f := fetched st component s
    Advances st component selection s f.after ∧
      (Selects component f.ending → component ∈ selection f.after.tools) := by
  have hfault : ∀ f : Fault, ¬ Selects component (.error f) := by
    intro f hs
    cases hs with
    | settled h => cases h
  obtain ⟨taken, hensure⟩ := ensureWorkingCopy_trace st component [] s
  have hsteps : ∀ step ∈ [Step.set, .checkout, .pull],
      step ∉ (if s.files.has st.config.repository.workingCopy then [] else [.clone]) ++
        if s.selectionReady then [] else [Step.init] := by
    cases s.files.has st.config.repository.workingCopy <;> cases s.selectionReady <;> decide
  -- of the three steps of a fetch only the second can set the selection
  have hfirst := untouched_of_trace hst (hsteps _ (by simp)) hensure
  unfold fetched
  rw [run_fetch, ask, Act.run_bind]
  dsimp only
  rcases he : (ensureWorkingCopy st component).run s with ⟨f | e | u, s₁⟩ <;>
    rw [he] at hensure hfirst <;> dsimp only
  · exact ⟨hfirst.advances, fun hs => absurd hs (hfault f)⟩
  · exact ⟨hfirst.advances,
      fun hs => absurd hs (not_selects hensure.carried rfl (hsteps _ (by simp)) (hsteps _ (by simp)))⟩
  · have hold₁ : ∀ p ∈ selection s₁.tools, p.IsEntry := by
      rw [hfirst.kept]
      exact hold
    obtain ⟨hsecond, hselected⟩ := select_advances component hst hold₁
    obtain ⟨selected, taken', hselect⟩ := select_trace st component s₁
    rw [Act.run_bind]
    rcases hs : (select st component).run s₁ with ⟨f | e | u, s₂⟩ <;>
      rw [hs] at hsecond hselected hselect <;> dsimp only
    · exact ⟨hfirst.trans hsecond, fun hs => absurd hs (hfault f)⟩
    · exact ⟨hfirst.trans hsecond, fun hs =>
        absurd hs (not_selects hselect.carried rfl (by split <;> decide) (by split <;> decide))⟩
    · obtain ⟨taken'', hupdate⟩ := update_trace st component [] s₂
      have hthird := untouched_of_trace hst (by decide) hupdate
      refine ⟨(hfirst.trans hsecond).trans hthird, fun _ => ?_⟩
      rw [hthird.kept]
      exact hselected rfl

/-! ## Histories -/

def Request.Admissible (selection : σ → List Text) (r : Request σ) : Prop :=
  r.component.IsEntry ∧ ∀ s, selection (r.meanwhile s).tools = selection s.tools

def Gains (old new : List Text) : Prop :=
  ∃ added, new = old ++ added ∧ added.Nodup ∧ ∀ c ∈ added, c ∉ old

omit hst in
theorem Grows.gains {component : Text} {old new new' : List Text} (h : Grows component old new)
    (h' : Gains new new') :
    Gains old new' := by
  obtain ⟨added, hnew', hnodup, hfresh⟩ := h'
  rcases h with rfl | ⟨hc, rfl⟩
  · exact ⟨added, hnew', hnodup, hfresh⟩
  · refine ⟨component :: added, by rw [hnew', List.append_assoc]; rfl, ?_, ?_⟩
    · have hnot : component ∉ added := fun hmem => hfresh component hmem (by simp)
      exact List.nodup_cons.2 ⟨hnot, hnodup⟩
    · intro c hmem hold
      rcases List.mem_cons.1 hmem with rfl | hmem
      · exact hc hold
      · exact hfresh c hmem (List.mem_append_left _ hold)

theorem history_advances {s : Session σ} {requests : List (Request σ)}
    (hold : ∀ p ∈ selection s.tools, p.IsEntry) (hr : ∀ r ∈ requests, r.Admissible selection) :
    ∀ f ∈ history st s requests, Gains (selection s.tools) (selection f.after.tools) ∧
      Advances st f.component selection f.before f.after ∧
      (Selects f.component f.ending → f.component ∈ selection f.after.tools) := by
  induction requests generalizing s with
  | nil => intro f hf; cases hf
  | cons r rs ih =>
    obtain ⟨hentry, hmeanwhile⟩ := hr r (List.mem_cons_self ..)
    have hbefore : selection (r.meanwhile s).tools = selection s.tools := hmeanwhile s
    obtain ⟨hadvances, hselects⟩ := fetched_advances r.component hst (s := r.meanwhile s) (hbefore ▸ hold)
    have hgrows := hadvances.grows
    rw [hbefore] at hgrows
    intro f hf
    rcases List.mem_cons.1 hf with rfl | hf
    · exact ⟨hgrows.gains ⟨[], by simp, by simp, by simp⟩, hadvances, hselects⟩
    · obtain ⟨hgains, hf⟩ :=
        ih (hgrows.isEntry hold hentry) (fun r' hmem => hr r' (List.mem_cons_of_mem _ hmem)) f hf
      exact ⟨hgrows.gains hgains, hf⟩

theorem history_pairwise {s : Session σ} {requests : List (Request σ)}
    (hold : ∀ p ∈ selection s.tools, p.IsEntry) (hr : ∀ r ∈ requests, r.Admissible selection) :
    (selection s.tools :: (history st s requests).map fun f =>
      selection f.after.tools).Pairwise (· <+: ·) := by
  induction requests generalizing s with
  | nil => exact List.pairwise_singleton _ _
  | cons r rs ih =>
    have hfirst : ∀ f ∈ history st s (r :: rs), selection s.tools <+: selection f.after.tools := by
      intro f hf
      obtain ⟨⟨added, hnew, -⟩, -⟩ := history_advances hst hold hr f hf
      exact ⟨added, hnew.symm⟩
    have hnext : ∀ p ∈ selection (fetched st r.component (r.meanwhile s)).after.tools, p.IsEntry := by
      obtain ⟨hentry, hmeanwhile⟩ := hr r (List.mem_cons_self ..)
      have hbefore : selection (r.meanwhile s).tools = selection s.tools := hmeanwhile s
      have hgrows := (fetched_advances r.component hst (s := r.meanwhile s) (hbefore ▸ hold)).1.grows
      rw [hbefore] at hgrows
      exact hgrows.isEntry hold hentry
    refine List.pairwise_cons.2 ⟨?_, ih hnext fun r' hmem => hr r' (List.mem_cons_of_mem _ hmem)⟩
    intro later hmem
    obtain ⟨f, hf, rfl⟩ := List.mem_map.1 hmem
    exact hfirst f hf

end

/-- **The selection only grows.** Along a history of fetches each selection begins with all earlier ones, no
component is added twice, and a component is selected after each fetch that has come through its selection.
Within a fetch the one selection that may be set is the old one with the component after it. -/
theorem selection_grows (st : Setting σ) (selection : σ → List Text) (hst : KeepsSelection st selection)
    (s : Session σ) (requests : List (Request σ)) (hold : ∀ p ∈ selection s.tools, p.IsEntry)
    (hr : ∀ r ∈ requests, r.Admissible selection) :
    let fs := history st s requests
    (selection s.tools :: fs.map fun f => selection f.after.tools).Pairwise (· <+: ·) ∧
      ∀ f ∈ fs, Gains (selection s.tools) (selection f.after.tools) ∧
        Advances st f.component selection f.before f.after ∧
        (Selects f.component f.ending → f.component ∈ selection f.after.tools) :=
  ⟨history_pairwise hst hold hr, history_advances hst hold hr⟩

/-- A client that fails when it is told to: the state holds the selection, and of each command to come whether
it fails. -/
def rehearse (list : Command) (set : List Text → Command) : Toolbox (List Text × List Bool) where
  invoke c files tools :=
    let later := tools.2.tail
    if tools.2.head? = some true then (.ok (.error (.notFound c.program)), files, tools.1, later)
    else if c = list then (.ok (.ok { stdout := (Text.ofLines tools.1).toBytes }), files, tools.1, later)
    else if c = set (c.arguments.drop 4) then (.ok (.ok {}), files, c.arguments.drop 4, later)
    else (.ok (.ok {}), files, tools.1, later)

def rehearsed (config : Config) : Setting (List Text × List Bool) :=
  let st := Setting.obliging config
  { config, toolbox := rehearse (listCommand st) (setCommand st), quiet := true, colours := false }

theorem rehearsed_toolbox (config : Config) :
    (rehearsed config).toolbox = rehearse (listCommand (rehearsed config))
    (setCommand (rehearsed config)) := rfl

theorem keepsSelection_rehearsed (config : Config) : KeepsSelection (rehearsed config) Prod.fst where
  lists files tools o files' tools' h := by
    rw [rehearsed_toolbox] at h
    dsimp only [rehearse] at h
    split at h
    · cases h
    · rw [if_pos rfl] at h
      cases h
      rfl
  sets names files tools o files' tools' h := by
    rw [rehearsed_toolbox] at h
    dsimp only [rehearse] at h
    split at h
    · cases h
    · have hargs : (setCommand (rehearsed config) names).arguments.drop 4 = names := rfl
      rw [hargs, if_neg (listCommand_ne_setCommand names).symm, if_pos rfl] at h
      cases h
      rfl
  failed c files tools r files' tools' h hfail := by
    rw [rehearsed_toolbox] at h
    dsimp only [rehearse] at h
    split at h
    · cases h; rfl
    · split at h
      · cases h; exact absurd rfl (hfail _)
      · split at h
        · cases h; exact absurd rfl (hfail _)
        · cases h; rfl
  others c files tools r files' tools' h hset := by
    rw [rehearsed_toolbox] at h
    dsimp only [rehearse] at h
    split at h
    · cases h; rfl
    · split at h
      · cases h; rfl
      · rw [if_neg (hset _)] at h
        cases h
        rfl

theorem selection_grows_rehearsed :
    let s : Session (List Text × List Bool) :=
      { files := .emptyAt [], tools := (["a_grate"], [false, false, false, true, false, false, true]) }
    let requests : List (Request (List Text × List Bool)) :=
      [{ component := "b_grate" }, { component := "b_grate" }, { component := "c d_grate" },
        { component := "a_grate" }]
    KeepsSelection (rehearsed {}) Prod.fst ∧ (∀ p ∈ s.tools.1, p.IsEntry) ∧
      (∀ r ∈ requests, r.Admissible Prod.fst) ∧
      let fs := history (rehearsed {}) s requests
      (s.tools.1 :: fs.map fun f => f.after.tools.1).Pairwise (· <+: ·) ∧
        ∀ f ∈ fs, Gains s.tools.1 f.after.tools.1 ∧
          Advances (rehearsed {}) f.component Prod.fst f.before f.after ∧
          (Selects f.component f.ending → f.component ∈ f.after.tools.1) := by
  intro s requests
  have hold : ∀ p ∈ s.tools.1, p.IsEntry := by decide
  have hr : ∀ r ∈ requests, r.Admissible Prod.fst := by
    simp only [requests, List.mem_cons, List.not_mem_nil, or_false]
    rintro r (rfl | rfl | rfl | rfl) <;> exact ⟨by decide, fun _ => rfl⟩
  exact ⟨keepsSelection_rehearsed {}, hold, hr,
    selection_grows (rehearsed {}) Prod.fst (keepsSelection_rehearsed {}) s requests hold hr⟩

end TriBench.Component
