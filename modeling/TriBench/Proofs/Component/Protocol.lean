import TriBench.Proofs.Component.Trace

/-!
# The protocol of fetches

The commands of a fetch are the first of its plan, all of them if the fetch comes as far as looking for the
component. Main statement: `fetches_follow_protocol`, which holds of every fetch in the life of a session,
whatever happens between them.
-/

namespace TriBench.Component

section
variable {σ : Type} {st : Setting σ} {component : Text} {selection : List Text}

variable (st component) in
def located (files : FileSystem) : Except FetchError Path :=
  let external := st.config.repository.workingCopy.join ⟨component⟩
  let beside := st.config.benchmarkDirectory.join ⟨component⟩
  if files.isDirectory external then .ok external
  else if files.isDirectory beside then .ok beside
  else .error (.notFound component [external, beside])

theorem mem_of_located {files : FileSystem} {directory : Path}
    (h : located st component files = .ok directory) :
    directory ∈ [st.config.repository.workingCopy.join ⟨component⟩,
      st.config.benchmarkDirectory.join ⟨component⟩] := by
  unfold located at h
  dsimp only at h
  split at h
  · cases h; simp
  · split at h
    · cases h; simp
    · cases h

variable (st component) in
def conclude (files : FileSystem) (r : Ending FetchError Unit) : Ending FetchError Path :=
  r.map fun x => x.bind fun _ => located st component files

variable (st component) in
theorem fetch_eq : fetch st component = (do
    ask st component
    let s ← get
    MonadExcept.ofExcept (located st component s.files) : Act σ FetchError Path) := by
  unfold fetch ask located
  simp only [bind_assoc]
  refine bind_congr fun _ => bind_congr fun _ => bind_congr fun _ => bind_congr fun s => ?_
  split
  · rfl
  · split <;> rfl

theorem run_fetch (s : Session σ) :
    (fetch st component).run s =
      (conclude st component ((ask st component).run s).2.files ((ask st component).run s).1,
        ((ask st component).run s).2) := by
  rw [fetch_eq, Act.run_bind]
  rcases (ask st component).run s with ⟨f | e | u, s'⟩
  · rfl
  · rfl
  · dsimp only [conclude]
    rw [Act.run_bind, Act.run_get]
    dsimp only
    cases located st component s'.files <;> rfl

inductive Settled (component : Text) : Ending FetchError Path → Prop
  | found (p : Path) : Settled component (.ok (.ok p))
  | missing (searched : List Path) : Settled component (.ok (.error (.notFound component searched)))

variable (st component) in
theorem settled_located (files : FileSystem) : Settled component (.ok (located st component files)) := by
  unfold located
  dsimp only
  split
  · exact .found _
  · split
    · exact .found _
    · exact .missing _

variable (st component) in
/-- What the log of a fetch and its ending tell of each other: the commands are the first of the
plan, and only the last of them may have failed. -/
structure Follows (present ready : Bool) (files : FileSystem) (ending : Ending FetchError Path)
    (new : List Call) (selection : List Text) (taken : List (Step × Answer)) : Prop where
  calls : new = callsOf st component selection taken
  order : taken.map Prod.fst <+: plan present ready (component ∈ selection)
  listing : ∀ o, (.list, .ok o) ∈ taken → selection = listed o
  succeeded : ∀ t ∈ taken.dropLast, t.2.isOk
  failed : ∀ step e, (step, .error e) ∈ taken → ending = .ok (.error (step.failure component e))
  blamed : ∀ e f, ending = .ok (.error e) → e.tool? = some f → ∃ step, (step, .error f) ∈ taken
  directory : ∀ p cause, ending = .ok (.error (.directory p cause)) → taken = []
  completed : (taken.map Prod.fst = plan present ready (component ∈ selection) ∧ ∀ t ∈ taken, t.2.isOk) ↔
    Settled component ending
  found : Settled component ending → ending = .ok (located st component files)

theorem clone_not_mem_tail_plan (present ready selected : Bool) :
    .clone ∉ (plan present ready selected).tail := by
  revert present ready selected
  decide

theorem conclude_eq_failure {files : FileSystem} {r : Ending FetchError Unit} {e : FetchError}
    (h : conclude st component files r = .ok (.error e)) :
    r = .ok (.error e) ∨ ∃ searched, e = .notFound component searched := by
  rcases r with f | e' | u
  · cases h
  · cases h; exact .inl rfl
  · have hs := settled_located st component files
    change (.ok (located st component files) : Ending FetchError Path) = _ at h
    rw [h] at hs
    cases hs with
    | missing searched => exact .inr ⟨searched, rfl⟩

section
variable {present ready : Bool} {r : Ending FetchError Unit} {taken : List (Step × Answer)}

theorem settled_conclude_iff {steps : List Step} (h : Carried component steps r taken) (files : FileSystem) :
    Settled component (conclude st component files r) ↔ ∃ u, r = .ok (.ok u) := by
  constructor
  · intro hs
    rcases r with f | e | u
    · cases hs
    · rcases h.failure_cases rfl with ⟨-, p, cause, rfl⟩ | ⟨step, -, f, rfl, -⟩
      · cases hs
      · cases step <;> cases hs
    · exact ⟨u, rfl⟩
  · rintro ⟨u, rfl⟩
    exact settled_located st component files

theorem follows_of_carried (h : Carried component (plan present ready (component ∈ selection)) r taken)
    (hl : ∀ o, (.list, .ok o) ∈ taken → selection = listed o) (files : FileSystem) :
    Follows st component present ready files (conclude st component files r)
      (callsOf st component selection taken)
      selection taken where
  calls := rfl
  order := h.order
  listing := hl
  succeeded := h.succeeded
  failed step e ht := by rw [h.failed_step ht]; rfl
  blamed e f he hf := by
    rcases conclude_eq_failure he with hr | ⟨searched, rfl⟩
    · rcases h.failure_cases hr with ⟨-, p, cause, rfl⟩ | ⟨step, -, f', rfl, ht⟩
      · cases hf
      · rw [Step.tool?_failure] at hf
        cases hf
        exact ⟨step, ht⟩
    · cases hf
  directory p cause he := by
    rcases conclude_eq_failure he with hr | ⟨searched, hs⟩
    · exact h.taken_eq_nil_of_directory hr (clone_not_mem_tail_plan present ready _)
    · cases hs
  completed := by rw [settled_conclude_iff h, h.completed_iff]
  found hs := by
    obtain ⟨u, rfl⟩ := (settled_conclude_iff h files).1 hs
    rfl

end

/-! ## The life of a session -/

structure Fetched (σ : Type) where
  component : Text
  before : Session σ
  ending : Ending FetchError Path
  after : Session σ

def Fetched.calls (f : Fetched σ) : List Call := f.after.calls.drop f.before.calls.length

variable (st component) in
def fetched (s : Session σ) : Fetched σ :=
  ⟨component, s, ((fetch st component).run s).1, ((fetch st component).run s).2⟩

variable (st component) in
theorem fetched_follows (s : Session σ) :
    let f := fetched st component s
    ∃ selection taken, f.after.calls = s.calls ++ f.calls ∧
      f.after.selectionReady = (s.selectionReady || initialized taken) ∧
      Follows st component
        (s.files.has st.config.repository.workingCopy) s.selectionReady f.after.files f.ending f.calls
        selection taken := by
  obtain ⟨selection, taken, h⟩ := ask_trace st component s
  have hcalls : (fetched st component s).after.calls = s.calls ++ callsOf st component selection taken := by
    rw [fetched, run_fetch]
    exact h.calls
  have hnew : (fetched st component s).calls = callsOf st component selection taken := by
    rw [Fetched.calls, hcalls]
    exact List.drop_left
  refine ⟨selection, taken, ?_, ?_, ?_⟩
  · rw [hnew]
    exact hcalls
  · rw [fetched, run_fetch]
    exact h.ready
  · rw [hnew, fetched, run_fetch]
    exact follows_of_carried h.carried h.listing _

theorem mem_of_fetched {s : Session σ} {directory : Path}
    (h : (fetched st component s).ending = .ok (.ok directory)) :
    directory ∈ [st.config.repository.workingCopy.join ⟨component⟩,
      st.config.benchmarkDirectory.join ⟨component⟩] := by
  obtain ⟨_, _, -, -, hfollows⟩ := fetched_follows st component s
  have hlocated := hfollows.found (by rw [h]; exact .found directory)
  rw [h] at hlocated
  exact mem_of_located (Except.ok.inj hlocated).symm

/-- A request for a component. Before it, anything may happen in the session but fetches. -/
structure Request (σ : Type) where
  component : Text
  meanwhile : Session σ → Session σ := id
  keepsReady : ∀ s, (meanwhile s).selectionReady = s.selectionReady := by exact fun _ => rfl

def history (st : Setting σ) : Session σ → List (Request σ) → List (Fetched σ)
  | _, [] => []
  | s, r :: rs =>
    let f := fetched st r.component (r.meanwhile s)
    f :: history st f.after rs

theorem initialized_iff {taken : List (Step × Answer)} :
    initialized taken = true ↔ ∃ o, ⟨initCommand st, .ok o⟩ ∈ callsOf st component selection taken := by
  constructor
  · intro h
    obtain ⟨⟨step, answer⟩, ht, hi⟩ := List.any_eq_true.1 h
    cases answer with
    | error e => simp [Except.isOk, Except.toBool] at hi
    | ok o =>
      have hstep : step = .init := by simpa [Except.isOk, Except.toBool] using hi
      subst hstep
      exact ⟨o, List.mem_map.2 ⟨_, ht, rfl⟩⟩
  · rintro ⟨o, ho⟩
    obtain ⟨⟨step, answer⟩, ht, hc⟩ := List.mem_map.1 ho
    have hinit : step.command st component selection = Step.init.command st component selection :=
      congrArg Call.command hc
    have hstep : step = .init := Step.eq_of_command hinit
    have hanswer : answer = .ok o := congrArg Call.answer hc
    subst hstep hanswer
    exact List.any_eq_true.2 ⟨_, ht, rfl⟩

variable (st) in
theorem history_follows (s : Session σ) (requests : List (Request σ))
    (i : Fin (history st s requests).length) :
    let fs := history st s requests
    let f := fs.get i
    ∃ ready selection taken, f.after.calls = f.before.calls ++ f.calls ∧
      (ready = true ↔ s.selectionReady = true ∨ ∃ g ∈ fs.take i, ∃ o, ⟨initCommand st, .ok o⟩ ∈ g.calls) ∧
      Follows st f.component
        (f.before.files.has st.config.repository.workingCopy) ready f.after.files f.ending f.calls
        selection taken := by
  induction requests generalizing s with
  | nil => exact i.elim0
  | cons r rs ih =>
    obtain ⟨selection, taken, hcalls, hready, hfollows⟩ := fetched_follows st r.component (r.meanwhile s)
    rw [r.keepsReady] at hready hfollows
    cases i using Fin.cases with
    | zero => exact ⟨s.selectionReady, selection, taken, hcalls, by simp, hfollows⟩
    | succ i =>
      obtain ⟨ready, selection', taken', hc, hr, hf⟩ := ih (fetched st r.component (r.meanwhile s)).after i
      refine ⟨ready, selection', taken', hc, ?_, hf⟩
      have hinit : initialized taken = true ↔
          ∃ o, ⟨initCommand st, .ok o⟩ ∈ (fetched st r.component (r.meanwhile s)).calls := by
        rw [hfollows.calls]
        exact initialized_iff
      rw [hr, hready, Bool.or_eq_true, hinit, or_assoc]
      simp [history]

/-- **The protocol of fetches.** Each fetch in the life of a session gives the first commands of its
plan: the clone is in it iff there is no working copy when the fetch begins, `init` iff it has not
succeeded in an earlier fetch, and `set` iff the component is not listed. -/
theorem fetches_follow_protocol (st : Setting σ) (files : FileSystem) (tools : σ)
    (requests : List (Request σ)) (i : Fin (history st { files, tools } requests).length) :
    let fs := history st { files, tools } requests
    let f := fs.get i
    ∃ ready selection taken, f.after.calls = f.before.calls ++ f.calls ∧
      (ready = true ↔ ∃ g ∈ fs.take i, ∃ o, ⟨initCommand st, .ok o⟩ ∈ g.calls) ∧
      Follows st f.component
        (f.before.files.has st.config.repository.workingCopy) ready f.after.files f.ending f.calls
        selection taken := by
  obtain ⟨ready, selection, taken, hc, hr, hf⟩ := history_follows st { files, tools } requests i
  exact ⟨ready, selection, taken, hc, by simpa using hr, hf⟩

end

end TriBench.Component
