import TriBench.Proofs.Build.Purposes

/-!
# How steps are put together

The steps of a benchmark are put together from a few primitive ones, of which one gives commands,
each for a purpose of the benchmark, and two look at the files. `Act.Alike` says so of two steps at
once, in a setting and in a variant of it. What is shown of the primitive steps by an induction on
it holds of all builds and executions. Main statements: `Build.both_alike`, `Build.parts_alike`,
`Execution.native_alike` and `Execution.sandboxed_alike`.
-/

namespace TriBench

section
variable {σ : Type}

structure Setting.Variant (σ : Type) where
  quiet : Bool
  toolbox : Toolbox σ

def Setting.vary (st : Setting σ) (v : Variant σ) : Setting σ :=
  { st with quiet := v.quiet, toolbox := v.toolbox }

def Component.setUp (st : Setting σ) (component : Text) : Act σ FetchError Unit := do
  if !(← get).selectionReady then
    let _ ← (st.invoke (Component.initCommand st)).orElseFail (.selecting component)
    modify fun s => { s with selectionReady := true }

theorem Component.run_setUp (st : Setting σ) (component : Text) (s : Session σ) :
    (setUp st component).run s = if s.selectionReady then (.ok (.ok ()), s) else
      match st.toolbox.invoke (initCommand st) s.files s.tools with
      | (.error f, files, tools) => (.error f, { s with files, tools })
      | (.ok (.error e), files, tools) =>
        (.ok (.error (.selecting component e)),
          { s with files, tools, calls := s.calls ++ [⟨initCommand st, .error e⟩] })
      | (.ok (.ok o), files, tools) => (.ok (.ok ()), { s with
          files, tools, calls := s.calls ++ [⟨initCommand st, .ok o⟩], selectionReady := true }) := by
  unfold setUp
  rw [Act.run_bind, Act.run_get]
  dsimp only
  by_cases h : s.selectionReady = true
  · rw [if_pos h, if_neg (by simp [h])]
    rfl
  · rw [if_neg h, if_pos (by simp [h])]
    rw [Act.run_bind, Setting.run_invoke_orElseFail]
    rcases st.toolbox.invoke (initCommand st) s.files s.tools with ⟨f | e | o, files, tools⟩ <;> rfl

inductive Build.Prepares (st : Setting σ) (b : Benchmark) : Path → Prop
  | program (hk : b.kind = .simple) {program directory : Path} (h : Build.program? st b = some program)
    (hp : program.parent? = some directory) : Prepares st b directory
  | copy {component : Text} (h : .shim component ∈ b.parts) {directory : Path}
    (hp : st.config.repository.workingCopy.parent? = some directory) : Prepares st b directory

/-- Two steps of a benchmark that are put together in the same way, the second for a variant. Their
failures count as `wrap` says, and their values fit `Q`. -/
inductive Act.Alike (st : Setting σ) (v : Setting.Variant σ) (b : Benchmark) :
    {ε α : Type} → (ε → Failure) → (α → Prop) → Act σ ε α → Act σ ε α → Prop
  | pure {ε α : Type} {wrap : ε → Failure} {Q : α → Prop} {x : α} (h : Q x) :
    Alike st v b wrap Q (pure x) (pure x)
  | throw {ε α : Type} {wrap : ε → Failure} {Q : α → Prop} {e : ε} (h : (wrap e).tool? = none) :
    Alike st v b wrap Q (throw e) (throw e)
  | slash {ε α : Type} {wrap : ε → Failure} {Q : α → Prop} {extension : Text}
    (hmem : extension ∈ [st.config.sourceExtension, st.config.moduleExtension]) (h : '/' ∈ extension) :
    Alike st v b wrap Q (fault (.slashInExtension extension)) (fault (.slashInExtension extension))
  | bind {ε α β : Type} {wrap : ε → Failure} {P : β → Prop} {Q : α → Prop} {a a' : Act σ ε β}
    {f f' : β → Act σ ε α}
    (ha : Alike st v b wrap P a a') (hf : ∀ x, P x → Alike st v b wrap Q (f x) (f' x)) :
    Alike st v b wrap Q (a >>= f) (a' >>= f')
  | orElseFail {ε δ α : Type} {wrap : δ → Failure} {Q : α → Prop} {a a' : Act σ ε α} {g : ε → δ}
    (ha : Alike st v b (fun e => wrap (g e)) Q a a') : Alike st v b wrap Q (a.orElseFail g) (a'.orElseFail g)
  | report {ε : Type} {wrap : ε → Failure} (blanks : Nat) (word rest : Text) :
    Alike st v b wrap (fun _ => True) (st.report blanks word rest) ((st.vary v).report blanks word rest)
  | look {ε α γ : Type} {wrap : ε → Failure} {Q : α → Prop} (question : FileSystem → γ) (k k' : γ → Act σ ε α)
    (hk : ∀ files, Alike st v b wrap Q (k (question files)) (k' (question files))) :
    Alike st v b wrap Q (get >>= fun s => k (question s.files)) (get >>= fun s => k' (question s.files))
  | makeDirectories {wrap : IoError → Failure} {p : Path} (hp : Build.Prepares st b p)
    (hw : ∀ e, (wrap e).tool? = none) :
    Alike st v b wrap (fun _ => True) (Setting.makeDirectories p) (Setting.makeDirectories p)
  | setUp {component : Text} (h : .shim component ∈ b.parts) :
    Alike st v b Failure.resolution (fun _ => True) (Component.setUp st component)
      (Component.setUp (st.vary v) component)
  | invoke {u : Purpose} (hu : u.Serves st b) {wrap : ToolFailure → Failure}
    (hw : ∀ e, wrap e = u.failure e) :
    Alike st v b wrap (fun _ => True) (st.invoke (u.command st)) ((st.vary v).invoke (u.command st))

section
variable {st : Setting σ} {v : Setting.Variant σ} {b : Benchmark} {ε δ α β : Type}

namespace Act.Alike

theorem withExtension {wrap : ε → Failure} {p : Path} {extension : Text}
    (h : '/' ∈ extension → extension ∈ [st.config.sourceExtension, st.config.moduleExtension]) :
    Alike st v b wrap (fun q => q = p.replaceExtension extension)
      (withExtension p extension) (withExtension p extension) := by
  by_cases hs : '/' ∈ extension
  · rw [withExtension_of_slash hs]
    exact .slash (h hs) hs
  · rw [withExtension_of_no_slash hs]
    exact .pure rfl

theorem makeParent {wrap : ε → Failure} {p : Path} {g : Path → IoError → ε}
    (hp : ∀ directory, p.parent? = some directory → Build.Prepares st b directory)
    (hw : ∀ q e, (wrap (g q e)).tool? = none) :
    Alike st v b wrap (fun _ => True) (Setting.makeParent p g) (Setting.makeParent p g) := by
  unfold Setting.makeParent
  cases h : p.parent? with
  | none => exact .pure trivial
  | some directory => exact .orElseFail (.makeDirectories (hp directory h) (hw directory))

theorem invoke_or {wrap : ε → Failure} {c : Command} {g : ToolFailure → ε} {u : Purpose} (hu : u.Serves st b)
    (hc : u.command st = c := by rfl) (hw : ∀ e, wrap (g e) = u.failure e := by exact fun _ => rfl) :
    Alike st v b wrap (fun _ => True) ((st.invoke c).orElseFail g) (((st.vary v).invoke c).orElseFail g) := by
  subst hc
  exact .orElseFail (.invoke hu hw)

theorem invoke_then {wrap : ε → Failure} {Q : α → Prop} {c : Command} {g : ToolFailure → ε} {a a' : Act σ ε α}
    {u : Purpose} (hu : u.Serves st b) (ha : Alike st v b wrap Q a a') (hc : u.command st = c := by rfl)
    (hw : ∀ e, wrap (g e) = u.failure e := by exact fun _ => rfl) :
    Alike st v b wrap Q
      (do
        let _ ← (st.invoke c).orElseFail g
        a)
      (do
        let _ ← ((st.vary v).invoke c).orElseFail g
        a') :=
  (invoke_or hu hc hw).bind fun _ _ => ha

end Act.Alike

/-! ## Components -/

namespace Component

variable {component : Text} (h : .shim component ∈ b.parts)
include h

theorem clone_alike : Act.Alike st v b Failure.resolution (fun _ => True) (clone st component)
    (clone (st.vary v) component) := by
  have hparent : Act.Alike st v b Failure.resolution (fun _ => True)
      (Setting.makeParent st.config.repository.workingCopy FetchError.directory)
      (Setting.makeParent st.config.repository.workingCopy FetchError.directory) :=
    .makeParent (fun _ hd => .copy h hd) fun _ _ => rfl
  unfold clone
  refine hparent.bind fun _ _ => (Act.Alike.report _ _ _).bind fun _ _ => ?_
  exact .invoke_then (.fetch h .clone []) (.pure trivial)

theorem ensureWorkingCopy_alike :
    Act.Alike st v b Failure.resolution (fun _ => True) (ensureWorkingCopy st component)
    (ensureWorkingCopy (st.vary v) component) := by
  refine .look (fun files => files.has st.config.repository.workingCopy)
    (fun present => if !present then (do clone st component; setUp st component) else setUp st component)
    (fun present => if !present then (do clone (st.vary v) component; setUp (st.vary v) component)
      else setUp (st.vary v) component) fun files => ?_
  split
  · exact (clone_alike h).bind fun _ _ => .setUp h
  · exact .setUp h

theorem select_alike : Act.Alike st v b Failure.resolution (fun _ => True) (select st component)
    (select (st.vary v) component) := by
  refine (Act.Alike.invoke_or (.fetch h .list [])).bind fun output _ => ?_
  dsimp only
  split
  · exact .invoke_then (.fetch h .set (listed output)) (.pure trivial)
  · exact .pure trivial

theorem ask_alike : Act.Alike st v b Failure.resolution (fun _ => True) (ask st component)
    (ask (st.vary v) component) := by
  refine (ensureWorkingCopy_alike h).bind fun _ _ => (select_alike h).bind fun _ _ => ?_
  exact .invoke_then (.fetch h .checkout []) (.invoke_then (.fetch h .pull []) (.pure trivial))

theorem fetch_alike :
    Act.Alike st v b Failure.resolution (fun directory => ∃ files, located st component files = .ok directory)
    (fetch st component) (fetch (st.vary v) component) := by
  rw [fetch_eq, fetch_eq]
  refine (ask_alike h).bind fun _ _ =>
    .look (located st component) MonadExcept.ofExcept MonadExcept.ofExcept fun files => ?_
  cases hl : located st component files with
  | ok directory => exact .pure ⟨files, hl⟩
  | error e =>
    have hs := settled_located st component files
    rw [hl] at hs
    cases hs with
    | missing searched => exact .throw rfl

end Component

/-! ## Builds -/

namespace Build

theorem relative_alike (p : Path) : Act.Alike st v b Failure.ofBuild
    (fun rel => p.stripPrefix? st.config.benchmarkDirectory = some rel) (relative st p)
    (relative (st.vary v) p) := by
  unfold relative
  dsimp only [Setting.vary]
  cases h : p.stripPrefix? st.config.benchmarkDirectory with
  | none => exact .throw rfl
  | some rel => exact .pure rfl

theorem native_alike :
    Act.Alike st v b Failure.ofBuild (fun a => b.kind = .simple ∧ program? st b = some a.path)
    (native st b) (native (st.vary v) b) := by
  unfold native
  by_cases hk : b.kind = .simple
  · simp only [hk, ne_eq, not_true_eq_false, if_false]
    refine (relative_alike b.path).bind fun rel hrel =>
      (Act.Alike.withExtension (by simp)).bind fun program hp => ?_
    subst hp
    have hprogram := program?_of_inside hrel
    refine (Act.Alike.makeParent (fun directory hd => .program hk hprogram hd) fun _ _ => rfl).bind fun _ _ =>
      (Act.Alike.report _ _ _).bind fun _ _ => ?_
    exact .invoke_then (.native hk hprogram) (.pure ⟨trivial, hprogram⟩)
  · simp only [hk, ne_eq, not_false_eq_true, if_true]
    exact (Act.Alike.throw (Q := fun _ => False) rfl).bind fun _ h => h.elim

theorem sandboxSource_alike {source : Path} (h : (Purpose.sandbox source).Serves st b) :
    Act.Alike st v b Failure.ofBuild
    (fun a => IsModule st a.path) (sandboxSource st source) (sandboxSource (st.vary v) source) := by
  refine (relative_alike source).bind fun rel hrel =>
    (Act.Alike.withExtension (by simp)).bind fun module hm => ?_
  subst hm
  exact (Act.Alike.report _ _ _).bind fun _ _ => .invoke_then h (.pure (.source hrel))

theorem sandbox_alike : Act.Alike st v b Failure.ofBuild (fun a => IsModule st a.path)
    (sandbox st b) (sandbox (st.vary v) b) := by
  unfold sandbox
  by_cases hk : b.kind = .simple
  · simp only [hk, ne_eq, not_true_eq_false, if_false]
    exact sandboxSource_alike (.simple hk)
  · simp only [hk, ne_eq, not_false_eq_true, if_true]
    exact (Act.Alike.throw (Q := fun _ => False) rfl).bind fun _ h => h.elim

theorem shim_alike {directory : Path} (h : (Purpose.shim directory).Serves st b) :
    Act.Alike st v b Failure.ofBuild
    (fun a => IsModule st a.path) (shim st directory) (shim (st.vary v) directory) := by
  unfold shim
  cases hn : directory.fileName? with
  | none => exact .throw rfl
  | some name =>
    refine (Act.Alike.report _ _ _).bind fun _ _ => .invoke_then h ?_
    refine (Act.Alike.withExtension (by simp)).bind fun module hm => ?_
    subst hm
    exact .pure (.shim hn)

theorem part_alike {p : Part} (h : p ∈ b.parts) :
    Act.Alike st v b Failure.ofBuild (fun a => IsModule st a.path)
    (part st p) (part (st.vary v) p) := by
  cases p with
  | source name =>
    refine (Act.Alike.withExtension (by simp)).bind fun source hs => ?_
    subst hs
    exact sandboxSource_alike (.part h)
  | shim name =>
    refine .bind (.orElseFail (Component.fetch_alike h)) fun directory hd => ?_
    obtain ⟨files, hd⟩ := hd
    exact shim_alike (.shim h hd)

theorem parts_alike {ps : List Part} (h : ps ⊆ b.parts) : Act.Alike st v b Failure.ofBuild
    (fun artifacts => artifacts.length = ps.length ∧ ∀ a ∈ artifacts, IsModule st a.path)
    (parts st ps) (parts (st.vary v) ps) := by
  induction ps with
  | nil => exact .pure ⟨rfl, by simp⟩
  | cons p ps ih =>
    obtain ⟨hp, hps⟩ := List.cons_subset.1 h
    refine (part_alike hp).bind fun a ha => (ih hps).bind fun artifacts has => .pure ⟨by simp [has.1], ?_⟩
    exact List.forall_mem_cons.2 ⟨ha, has.2⟩

theorem serves_boot (p : Platform) {module : Path} (h : IsModule st module) :
    (Purpose.boot p [module]).Serves st b :=
  .boot p (List.cons_ne_nil _ _) (by simpa using h)

theorem serves_boot_parts (p : Platform) (hb : b.parts ≠ []) {artifacts : List Artifact}
    (h : artifacts.length = b.parts.length ∧ ∀ a ∈ artifacts, IsModule st a.path) :
    (Purpose.boot p (artifacts.map Artifact.path)).Serves st b := by
  refine .boot p ?_ (by simpa using h.2)
  intro hnil
  have hlength := h.1
  rw [List.map_eq_nil_iff.1 hnil] at hlength
  exact hb (List.length_eq_zero_iff.1 hlength.symm)

theorem both_alike : Act.Alike st v b Failure.ofBuild
    (fun built => b.kind = .simple ∧ program? st b = some built.1.path ∧ IsModule st built.2.path)
    (both st b) (both (st.vary v) b) :=
  native_alike.bind fun _ hp => sandbox_alike.bind fun _ hm => .pure ⟨hp.1, hp.2, hm⟩

end Build

/-! ## Executions -/

namespace Execution

theorem native_alike {program : Path} (h : (Purpose.execution program).Serves st b) :
    Act.Alike st v b Failure.execution
    (fun _ => True) (native st program) (native (st.vary v) program) := by
  refine (Act.Alike.report _ _ _).bind fun _ _ => ?_
  exact (Act.Alike.invoke_or h).bind fun _ _ => .pure trivial

theorem sandboxed_alike {modules : List Path} {p : Platform} (h : (Purpose.boot p modules).Serves st b) :
    Act.Alike st v b Failure.execution (fun _ => True) (sandboxed st modules p)
      (sandboxed (st.vary v) modules p) := by
  have hne : modules ≠ [] := by
    cases h with
    | boot _ hne _ => exact hne
  unfold sandboxed
  simp only [hne, if_false]
  refine (Act.Alike.report _ _ _).bind fun _ _ => ?_
  exact (Act.Alike.invoke_or h).bind fun _ _ => .pure trivial

end Execution

end

end

end TriBench
