import TriBench.Component
import TriBench.Proofs.Session.Log

/-!
# Traces of a fetch

A fetch asks version control step by step and stops at the first step that fails. A trace of it lists the
steps that were taken, each with its answer; the ending, the log and the session afterwards follow from
the trace. Main statement: `ask_trace`, every fetch has a trace along its plan.
-/

namespace TriBench.Component

/-! ## Steps -/

inductive Step
  | clone
  | init
  | list
  | set
  | checkout
  | pull
  deriving DecidableEq

section
variable {σ α β : Type} (st : Setting σ) (component : Text) (selection : List Text)

namespace Step

def command : Step → Command
  | clone => cloneCommand st
  | init => initCommand st
  | list => listCommand st
  | set => setCommand st (selection ++ [component])
  | checkout => checkoutCommand st
  | pull => pullCommand st

def failure (e : ToolFailure) : Step → FetchError
  | clone => .cloning component e
  | init | list | set => .selecting component e
  | checkout | pull => .updating component e

theorem tool?_failure (e : ToolFailure) (step : Step) : (step.failure component e).tool? = some e := by
  cases step <;> rfl

variable {st component selection} in
/-- Steps have different commands, whatever the components and the selections. -/
theorem eq_of_command {step step' : Step} {component' : Text} {selection' : List Text}
    (h : step.command st component selection = step'.command st component' selection') : step = step' := by
  have hargs := congrArg Command.arguments h
  cases step <;> cases step' <;>
    simp [command, cloneCommand, initCommand, listCommand, setCommand, checkoutCommand,
      pullCommand, inWorkingCopy, Setting.command, Command.args] at hargs ⊢

end Step

/-- All steps of a fetch in their order: the clone if there is no working copy, `init` if no earlier fetch
has come through it, and `set` if the component is not selected. -/
def plan (present ready selected : Bool) : List Step :=
  ((if present then [] else [.clone]) ++ if ready then [] else [.init]) ++
    ((.list :: if selected then [] else [.set]) ++ [.checkout, .pull])

def callsOf (taken : List (Step × Answer)) : List Call :=
  taken.map fun t => ⟨t.1.command st component selection, t.2⟩

def initialized (taken : List (Step × Answer)) : Bool :=
  taken.any fun t => t.1 = .init && t.2.isOk

/-! ## Steps one after another -/

/-- How far steps are taken and how that ends. Only before a clone something else than its command can
fail. -/
inductive Carried : List Step → Ending FetchError α → List (Step × Answer) → Prop
  | done (x : α) : Carried [] (.ok (.ok x)) []
  | blocked (p : Path) (e : IoError) (steps : List Step) :
    Carried (.clone :: steps) (.ok (.error (.directory p e))) []
  | fault (f : Fault) (step : Step) (steps : List Step) : Carried (step :: steps) (.error f) []
  | failed (step : Step) (e : ToolFailure) (steps : List Step) :
    Carried (step :: steps) (.ok (.error (step.failure component e))) [(step, .error e)]
  | next (step : Step) (o : ToolOutput) {steps : List Step} {r : Ending FetchError α}
    {taken : List (Step × Answer)}
    (h : Carried steps r taken) : Carried (step :: steps) r ((step, .ok o) :: taken)

namespace Carried
variable {component} {steps more : List Step} {r : Ending FetchError α} {taken taken' : List (Step × Answer)}

theorem append {x : β} (h : Carried component steps (.ok (.ok x)) taken)
    (h' : Carried component more r taken') :
    Carried component (steps ++ more) r (taken ++ taken') := by
  generalize hr : (.ok (.ok x) : Ending FetchError β) = r₀ at h
  induction h with
  | done => exact h'
  | next step o _ ih => exact .next step o (ih hr)
  | _ => cases hr

theorem append_failure {e : FetchError}
    (h : Carried component steps (.ok (.error e) : Ending FetchError β) taken) :
    Carried component (steps ++ more) (.ok (.error e) : Ending FetchError α) taken := by
  generalize hr : (.ok (.error e) : Ending FetchError β) = r₀ at h
  induction h with
  | blocked p e' steps => cases hr; exact .blocked p e' _
  | failed step e' steps => cases hr; exact .failed step e' _
  | next step o _ ih => exact .next step o (ih hr)
  | _ => cases hr

theorem append_fault {f : Fault} (h : Carried component steps (.error f : Ending FetchError β) taken) :
    Carried component (steps ++ more) (.error f : Ending FetchError α) taken := by
  generalize hr : (.error f : Ending FetchError β) = r₀ at h
  induction h with
  | fault _ step steps => cases hr; exact .fault f step _
  | next step o _ ih => exact .next step o (ih hr)
  | _ => cases hr

theorem order (h : Carried component steps r taken) : taken.map Prod.fst <+: steps := by
  induction h with
  | next step o _ ih => exact List.cons_prefix_cons.2 ⟨rfl, ih⟩
  | failed step e steps => exact List.cons_prefix_cons.2 ⟨rfl, List.nil_prefix⟩
  | _ => exact List.nil_prefix

theorem succeeded (h : Carried component steps r taken) : ∀ t ∈ taken.dropLast, t.2.isOk := by
  induction h with
  | @next step o steps r taken _ ih =>
    intro t ht
    cases taken with
    | nil => cases ht
    | cons t' taken =>
      rcases List.mem_cons.1 ht with rfl | ht
      · rfl
      · exact ih t ht
  | _ => intro t ht; cases ht

theorem failed_step (h : Carried component steps r taken) {step : Step} {e : ToolFailure}
    (ht : (step, .error e) ∈ taken) : r = .ok (.error (step.failure component e)) := by
  induction h with
  | failed step' e' steps => cases List.mem_singleton.1 ht; rfl
  | next step' o _ ih =>
    rcases List.mem_cons.1 ht with ht | ht
    · cases ht
    · exact ih ht
  | _ => cases ht

/-- A failure stems from the directory for a clone or from the command of a step. -/
theorem failure_cases {e : FetchError} (h : Carried component steps r taken) (hr : r = .ok (.error e)) :
    (.clone ∈ steps ∧ ∃ p cause, e = .directory p cause) ∨
      ∃ step ∈ steps, ∃ f, e = step.failure component f ∧ (step, .error f) ∈ taken := by
  induction h with
  | blocked p e' steps => cases hr; exact .inl ⟨List.mem_cons_self .., p, e', rfl⟩
  | failed step e' steps => cases hr; exact .inr ⟨step, List.mem_cons_self .., e', rfl, List.mem_cons_self ..⟩
  | next step o _ ih =>
    rcases ih hr with ⟨hc, hd⟩ | ⟨step', hs, f, he, ht⟩
    · exact .inl ⟨List.mem_cons_of_mem _ hc, hd⟩
    · exact .inr ⟨step', List.mem_cons_of_mem _ hs, f, he, List.mem_cons_of_mem _ ht⟩
  | _ => cases hr

theorem taken_eq_nil_of_directory {p : Path} {cause : IoError} (h : Carried component steps r taken)
    (hr : r = .ok (.error (.directory p cause))) (hc : .clone ∉ steps.tail) : taken = [] := by
  cases h with
  | blocked | fault => rfl
  | done => cases hr
  | failed step => cases step <;> cases hr
  | next step o h =>
    rcases h.failure_cases hr with ⟨hmem, -⟩ | ⟨step', -, f, he, -⟩
    · exact absurd hmem hc
    · cases step' <;> cases he

/-- All steps are taken with success iff they come to a value. -/
theorem completed_iff (h : Carried component steps r taken) :
    (taken.map Prod.fst = steps ∧ ∀ t ∈ taken, t.2.isOk) ↔ ∃ x, r = .ok (.ok x) := by
  induction h with
  | done x => simp
  | blocked | fault => simp
  | failed step e steps => simp [Except.isOk, Except.toBool]
  | next step o _ ih => simpa [Except.isOk, Except.toBool] using ih

end Carried

/-! ## The trace of a run -/

inductive Answered : σ → List Call → σ → Prop
  | nil (tools : σ) : Answered tools [] tools
  | call {c : Command} {answer : Answer} {files files' : FileSystem}
    {tools tools' tools'' : σ} {calls : List Call}
    (h : st.toolbox.invoke c files tools = (.ok answer, files', tools'))
    (hr : Answered tools' calls tools'') :
    Answered tools (⟨c, answer⟩ :: calls) tools''
  | fault {c : Command} {f : Fault} {files files' : FileSystem} {tools tools' tools'' : σ} {calls : List Call}
    (h : st.toolbox.invoke c files tools = (.error f, files', tools')) (hr : Answered tools' calls tools'') :
    Answered tools calls tools''

theorem Answered.append {st : Setting σ} {tools tools' tools'' : σ} {xs ys : List Call}
    (h : Answered st tools xs tools') (h' : Answered st tools' ys tools'') :
    Answered st tools (xs ++ ys) tools'' := by
  induction h with
  | nil => exact h'
  | call hc _ ih => exact .call hc (ih h')
  | fault hf _ ih => exact .fault hf (ih h')

/-- What a run has taken of its steps: its ending, the log, the flag of the session and the state of the
tools all follow from it. -/
structure Trace (steps : List Step) (s : Session σ) (run : Ending FetchError α × Session σ)
    (taken : List (Step × Answer)) : Prop where
  carried : Carried component steps run.1 taken
  calls : run.2.calls = s.calls ++ callsOf st component selection taken
  ready : run.2.selectionReady = (s.selectionReady || initialized taken)
  listing : ∀ o, (.list, .ok o) ∈ taken → selection = listed o
  answered : Answered st s.tools (callsOf st component selection taken) run.2.tools

namespace Trace
variable {st component selection} {steps : List Step} {s : Session σ}

theorem of_run {a : Act σ FetchError α} {x : α} {s' : Session σ} (h : a.run s = (.ok (.ok x), s'))
    (hc : s'.calls = s.calls) (hr : s'.selectionReady = s.selectionReady) (ht : s'.tools = s.tools) :
    Trace st component selection [] s (a.run s) [] := by
  rw [h]
  refine ⟨.done x, ?_, ?_, ?_, ?_⟩
  · simpa [callsOf] using hc
  · simpa [initialized] using hr
  · intro o ho; cases ho
  · rw [ht]; exact .nil _

theorem bind (more : List Step) {a : Act σ FetchError β} {f : β → Act σ FetchError α}
    {taken : List (Step × Answer)} (ha : Trace st component selection steps s (a.run s) taken)
    (hf : ∀ x s', a.run s = (.ok (.ok x), s') →
      ∃ taken', Trace st component selection more s' ((f x).run s') taken') :
    ∃ taken', Trace st component selection (steps ++ more) s ((a >>= f).run s) taken' := by
  rw [Act.run_bind]
  rcases hr : a.run s with ⟨x | e | x, s'⟩ <;> rw [hr] at ha
  · exact ⟨taken, ha.carried.append_fault, ha.calls, ha.ready, ha.listing, ha.answered⟩
  · exact ⟨taken, ha.carried.append_failure, ha.calls, ha.ready, ha.listing, ha.answered⟩
  · obtain ⟨taken', h⟩ := hf x s' hr
    have happ : callsOf st component selection (taken ++ taken') =
        callsOf st component selection taken ++ callsOf st component selection taken' := List.map_append
    refine ⟨taken ++ taken', ha.carried.append h.carried, ?_, ?_, ?_, ?_⟩
    · rw [h.calls, ha.calls, happ, List.append_assoc]
    · have hany : initialized (taken ++ taken') = (initialized taken || initialized taken') := List.any_append
      rw [h.ready, ha.ready, hany, Bool.or_assoc]
    · intro o ho
      rcases List.mem_append.1 ho with ho | ho
      · exact ha.listing o ho
      · exact h.listing o ho
    · rw [happ]
      exact ha.answered.append h.answered

theorem initialized_eq_false (hs : .init ∉ steps) {run : Ending FetchError α × Session σ}
    {taken : List (Step × Answer)} (h : Trace st component selection steps s run taken) :
    initialized taken = false := by
  rw [initialized, List.any_eq_false]
  intro t ht hi
  have hmem : t.1 ∈ steps := h.carried.order.subset (List.mem_map_of_mem ht)
  have hinit : t.1 = .init := by simpa using (Bool.and_eq_true_iff.1 hi).1
  exact hs (hinit ▸ hmem)

end Trace

/-! ## The parts of a fetch -/

variable (s : Session σ)

theorem invoke_trace (step : Step) (hstep : step ≠ .init)
    (hlist : step = .list → ∀ o files tools,
      st.toolbox.invoke (listCommand st) s.files s.tools =
        (.ok (.ok o), files, tools) → selection = listed o) :
    ∃ taken, Trace st component selection [step] s
      (((st.invoke (step.command st component selection)).orElseFail (step.failure component ·)).run s)
        taken := by
  rw [Setting.run_invoke_orElseFail]
  rcases h : st.toolbox.invoke (step.command st component selection) s.files s.tools
    with ⟨f | e | o, files, tools⟩
  · exact ⟨[], .fault f step [], by simp [callsOf], by simp [initialized], by simp, .fault h (.nil _)⟩
  · refine ⟨[(step, .error e)], .failed step e [], rfl, ?_, by simp, .call h (.nil _)⟩
    simp [initialized, Except.isOk, Except.toBool]
  · refine ⟨[(step, .ok o)], .next step o (.done o), rfl, ?_, ?_, .call h (.nil _)⟩
    · simp [initialized, hstep]
    · intro o' ho
      cases List.mem_singleton.1 ho
      exact hlist rfl o files tools h

theorem makeParent_run {ε : Type} (p : Path) (wrap : Path → IoError → ε) (s : Session σ) :
    ∃ r files, (Setting.makeParent p wrap : Act σ ε Unit).run s = (.ok r, { s with files }) ∧
      ∀ e, r = .error e → ∃ q cause, e = wrap q cause := by
  rw [Setting.run_makeParent]
  cases p.parent? with
  | none => exact ⟨.ok (), s.files, rfl, fun e he => by cases he⟩
  | some parent =>
    refine ⟨_, _, rfl, fun e he => ?_⟩
    cases hr : (s.files.makeDirectories parent).1 with
    | ok u => rw [hr] at he; cases he
    | error cause => rw [hr] at he; cases he; exact ⟨parent, cause, rfl⟩

theorem clone_trace :
    ∃ taken, Trace st component selection [.clone] s ((clone st component).run s) taken := by
  obtain ⟨r, files, hparent, hwrap⟩ := makeParent_run st.config.repository.workingCopy FetchError.directory s
  unfold clone
  dsimp only
  rw [Act.run_bind, hparent]
  cases r with
  | error e =>
    obtain ⟨q, cause, rfl⟩ := hwrap e rfl
    exact ⟨[], .blocked q cause [], by simp [callsOf], by simp [initialized], by simp, .nil _⟩
  | ok u =>
    obtain ⟨printed, hreport⟩ := st.run_report (ε := FetchError) 4 "Fetching"
      (st.config.repository.url ++ " => " ++ st.config.repository.workingCopy.quoted) { s with files }
    dsimp only
    rw [Act.run_bind, hreport]
    dsimp only
    have hs : ∀ {run : Ending FetchError Unit × Session σ} {taken : List (Step × Answer)},
        Trace st component selection [.clone] { s with files, printed } run taken →
          Trace st component selection [.clone] s run taken :=
      fun h => ⟨h.carried, h.calls, h.ready, h.listing, h.answered⟩
    obtain ⟨taken, h⟩ :=
      invoke_trace st component selection { s with files, printed } .clone (by decide) (fun h => by cases h)
    obtain ⟨taken', h'⟩ := h.bind [] (f := fun _ => (pure PUnit.unit : Act σ FetchError PUnit))
      fun x s' _ => ⟨[], Trace.of_run rfl rfl rfl rfl⟩
    exact ⟨taken', hs h'⟩

theorem init_trace :
    ∃ taken, Trace st component selection (if s.selectionReady then [] else [.init]) s
      ((do
        if !(← get).selectionReady then
          let _ ← (st.invoke (initCommand st)).orElseFail (FetchError.selecting component)
          modify fun s => { s with selectionReady := true } : Act σ FetchError Unit).run s) taken := by
  rw [Act.run_bind, Act.run_get]
  dsimp only
  cases hready : s.selectionReady with
  | true => exact ⟨[], Trace.of_run rfl rfl rfl rfl⟩
  | false =>
    simp only [Bool.not_false, if_true, Bool.false_eq_true, if_false]
    rw [Act.run_bind, Setting.run_invoke_orElseFail]
    rcases h : st.toolbox.invoke (initCommand st) s.files s.tools with ⟨f | e | o, files, tools⟩ <;>
      dsimp only
    · exact ⟨[], .fault f .init [], by simp [callsOf], by simp [initialized], by simp, .fault h (.nil _)⟩
    · exact ⟨[(.init, .error e)], .failed .init e [], rfl,
        by simp [initialized, Except.isOk, Except.toBool], by simp, .call h (.nil _)⟩
    · exact ⟨[(.init, .ok o)], .next .init o (.done _), rfl,
        by simp [initialized, Except.isOk, Except.toBool], by simp, .call h (.nil _)⟩

theorem ensureWorkingCopy_trace :
    ∃ taken, Trace st component selection
      ((if s.files.has st.config.repository.workingCopy then [] else [.clone]) ++
        if s.selectionReady then [] else [.init])
      s ((ensureWorkingCopy st component).run s) taken := by
  unfold ensureWorkingCopy
  rw [Act.run_bind, Act.run_get]
  dsimp only
  cases s.files.has st.config.repository.workingCopy with
  | true => exact init_trace st component selection s
  | false =>
    simp only [Bool.not_false, if_true, Bool.false_eq_true, if_false]
    obtain ⟨taken, h⟩ := clone_trace st component selection s
    refine h.bind _ fun x s' hs => ?_
    have hready : s'.selectionReady = s.selectionReady := by
      have hr := h.ready
      rw [hs, h.initialized_eq_false (by decide), Bool.or_false] at hr
      exact hr
    rw [← hready]
    exact init_trace st component selection s'

theorem select_trace :
    ∃ selection taken, Trace st component selection
      (.list :: if decide (component ∈ selection) then [] else [.set]) s ((select st component).run s)
      taken := by
  -- what the listing names, if it succeeds; otherwise no step depends on it
  obtain ⟨selection, hselection⟩ : ∃ selection, ∀ o files tools,
      st.toolbox.invoke (listCommand st) s.files s.tools = (.ok (.ok o), files, tools) →
      selection = listed o := by
    rcases st.toolbox.invoke (listCommand st) s.files s.tools with ⟨f | e | o, files, tools⟩
    · exact ⟨[], fun _ _ _ h => by cases h⟩
    · exact ⟨[], fun _ _ _ h => by cases h⟩
    · exact ⟨listed o, fun _ _ _ h => by cases h; rfl⟩
  refine ⟨selection, ?_⟩
  obtain ⟨taken, h⟩ := invoke_trace st component selection s .list (by decide) fun _ => hselection
  refine h.bind (if decide (component ∈ selection) then [] else [.set]) fun o s' hs => ?_
  have ho : selection = listed o := by
    change ((st.invoke (listCommand st)).orElseFail (FetchError.selecting component)).run s = _ at hs
    rw [Setting.run_invoke_orElseFail] at hs
    rcases hi : st.toolbox.invoke (listCommand st) s.files s.tools with ⟨f | e | o', files, tools⟩ <;>
      rw [hi] at hs
    · cases hs
    · cases hs
    · cases hs
      exact hselection o files tools hi
  dsimp only
  rw [← ho]
  by_cases hc : component ∈ selection
  · simp only [hc, not_true_eq_false, decide_true, if_false, if_true]
    exact ⟨[], Trace.of_run (x := ()) rfl rfl rfl rfl⟩
  · simp only [hc, not_false_eq_true, decide_false, if_true, Bool.false_eq_true, if_false]
    obtain ⟨taken, h⟩ := invoke_trace st component selection s' .set (by decide) fun h => by cases h
    exact h.bind [] fun x s' _ => ⟨[], Trace.of_run (x := ()) rfl rfl rfl rfl⟩

theorem update_trace :
    ∃ taken, Trace st component selection [.checkout, .pull] s ((update st component).run s) taken := by
  obtain ⟨taken, h⟩ := invoke_trace st component selection s .checkout (by decide) fun h => by cases h
  refine h.bind [.pull] fun x s' _ => ?_
  obtain ⟨taken, h⟩ := invoke_trace st component selection s' .pull (by decide) fun h => by cases h
  exact h.bind [] fun x s' _ => ⟨[], Trace.of_run rfl rfl rfl rfl⟩

/-! ## The whole fetch -/

def ask : Act σ FetchError Unit := do
  ensureWorkingCopy st component
  select st component
  update st component

theorem ask_trace :
    ∃ selection taken, Trace st component selection
      (plan (s.files.has st.config.repository.workingCopy) s.selectionReady (component ∈ selection)) s
      ((ask st component).run s) taken := by
  -- the listing decides what is selected, but it is read only once there is a working copy
  obtain ⟨selection, hselect⟩ : ∃ selection, ∀ s',
      (ensureWorkingCopy st component).run s = (.ok (.ok ()), s') →
      ∃ taken, Trace st component selection
        (.list :: if decide (component ∈ selection) then [] else [.set]) s'
        ((select st component).run s') taken := by
    rcases (ensureWorkingCopy st component).run s with ⟨f | e | u, s₁⟩
    · exact ⟨[], fun _ h => by cases h⟩
    · exact ⟨[], fun _ h => by cases h⟩
    · obtain ⟨selection, htrace⟩ := select_trace st component s₁
      exact ⟨selection, fun _ h => by cases h; exact htrace⟩
  obtain ⟨taken, h⟩ := ensureWorkingCopy_trace st component selection s
  refine ⟨selection, h.bind _ fun u s' hs => ?_⟩
  obtain ⟨taken', h'⟩ := hselect s' hs
  exact h'.bind _ fun _ s'' _ => update_trace st component selection s''

end

end TriBench.Component
