import Mathlib.Tactic.Choose
import TriBench.Proofs.Build.Variants

/-!
# Builds under steady facts

The tools answer each command in one way, whatever the files and their own state. Then the end of a
step comes from what it sees of the files alone: nothing that has been done before has a part in it,
nor has whether the sparse selection is set up by then. Main statements: `Build.both_settled` and
`Build.parts_settled`.
-/

namespace TriBench

section
variable {σ : Type}

def Toolbox.Answers (t : Toolbox σ) (answer : Command → Except Fault Answer) : Prop :=
  ∀ c files tools, (t.invoke c files tools).1 = answer c

variable (st : Setting σ)

structure Build.SameFacts (b : Benchmark) (files files' : FileSystem) : Prop where
  copy : files.has st.config.repository.workingCopy = files'.has st.config.repository.workingCopy
  component : ∀ name, .shim name ∈ b.parts →
    Component.located st name files = Component.located st name files'
  made : ∀ d, Build.Prepares st b d → (files.makeDirectories d).1 = (files'.makeDirectories d).1

inductive Component.Sees (component : Text) (s : Session σ) : FileSystem → Prop
  | copy : Sees component s s.files
  | directory {t : Session σ} (h : (ask st component).run s = (.ok (.ok ()), t)) : Sees component s t.files

inductive Build.PartsSee : List Part → Session σ → FileSystem → Prop
  | here {name : Text} {ps : List Part} {s : Session σ} {files : FileSystem}
    (h : Component.Sees st name s files) :
    PartsSee (.shim name :: ps) s files
  | later {p : Part} {ps : List Part} {s t : Session σ} {artifact : Artifact} {files : FileSystem}
    (hp : (part st p).run s = (.ok (.ok artifact), t)) (h : PartsSee ps t files) : PartsSee (p :: ps) s files

inductive Build.Sees (b : Benchmark) (s : Session σ) : FileSystem → Prop
  | simple (hk : b.kind = .simple) : Sees b s s.files
  | composite (hk : b.kind = .composite) {files : FileSystem}
    (h : PartsSee st b.parts s files) : Sees b s files

variable (answer : Command → Except Fault Answer)

def Session.Founded (s : Session σ) : Prop :=
  s.selectionReady = true → ∃ o, answer (Component.initCommand st) = .ok (.ok o)

/-- There is one way for the step to end, if it comes from a session of the kind. -/
def Act.Settled {ε α : Type} (kind : Session σ → Prop) (a : Act σ ε α) : Prop :=
  ∃ r, ∀ s, s.Founded st answer → kind s → (a.run s).1 = r ∧ (a.run s).2.Founded st answer

def Act.Blind {ε α : Type} (a : Act σ ε α) : Prop := a.Settled st answer fun _ => True

variable {st answer} {ε δ α β γ : Type}

/-! ## Steps -/

namespace Act

variable {kind kind' : Session σ → Prop} {a : Act σ ε α}

theorem Settled.imp (h : a.Settled st answer kind) (hkind : ∀ s, kind' s → kind s) :
    a.Settled st answer kind' := by
  obtain ⟨r, h⟩ := h
  exact ⟨r, fun s hfounded hs => h s hfounded (hkind s hs)⟩

theorem Blind.settled (h : a.Blind st answer) : a.Settled st answer kind := h.imp fun _ _ => trivial

theorem Settled.orElseFail (h : a.Settled st answer kind) (g : ε → δ) :
    (a.orElseFail g).Settled st answer kind := by
  obtain ⟨r, h⟩ := h
  refine ⟨r.map (·.mapError g), fun s hfounded hs => ?_⟩
  obtain ⟨hr, hfounded'⟩ := h s hfounded hs
  rw [run_orElseFail, hr]
  exact ⟨rfl, hfounded'⟩

/-- The kind of session that the second step needs follows from how the first one ends. -/
theorem Settled.bind {f : α → Act σ ε β} {kinds : α → Session σ → Prop} (ha : a.Settled st answer kind)
    (hf : ∀ x, (f x).Settled st answer (kinds x)) :
    (a >>= f).Settled st answer fun s => kind s ∧ ∀ x t, a.run s = (.ok (.ok x), t) → kinds x t := by
  obtain ⟨r, ha⟩ := ha
  choose rs hf using hf
  refine ⟨match r with
    | .ok (.ok x) => rs x
    | .ok (.error e) => .ok (.error e)
    | .error f => .error f, fun s hfounded hs => ?_⟩
  obtain ⟨hr, hfounded'⟩ := ha s hfounded hs.1
  have hnext := hs.2
  rw [run_bind]
  rcases hrun : a.run s with ⟨f | e | x, t⟩ <;> rw [hrun] at hr hfounded' <;> subst hr
  · exact ⟨rfl, hfounded'⟩
  · exact ⟨rfl, hfounded'⟩
  · exact hf x t hfounded' (hnext x t hrun)

theorem Settled.andThen {f : α → Act σ ε β} (ha : a.Settled st answer kind)
    (hf : ∀ x, (f x).Blind st answer) :
    (a >>= f).Settled st answer kind :=
  (ha.bind hf).imp fun _ hs => ⟨hs, fun _ _ _ => trivial⟩

theorem Blind.bind {f : α → Act σ ε β} (ha : a.Blind st answer) (hf : ∀ x, (f x).Blind st answer) :
    (a >>= f).Blind st answer :=
  Settled.andThen ha hf

theorem blind_of_run {r : Ending ε α} (h : ∀ s, ∃ printed, a.run s = (r, { s with printed })) :
    a.Blind st answer := by
  refine ⟨r, fun s hfounded _ => ?_⟩
  obtain ⟨printed, hr⟩ := h s
  rw [hr]
  exact ⟨rfl, hfounded⟩

theorem blind_pure (x : α) : (pure x : Act σ ε α).Blind st answer := blind_of_run fun s => ⟨s.printed, rfl⟩

theorem blind_throw (e : ε) : (throw e : Act σ ε α).Blind st answer := blind_of_run fun s => ⟨s.printed, rfl⟩

theorem blind_withExtension (p : Path) (extension : Text) :
    (withExtension p extension : Act σ ε Path).Blind st answer := by
  unfold withExtension
  split
  · exact blind_pure _
  · exact blind_of_run fun s => ⟨s.printed, rfl⟩

theorem blind_report (blanks : Nat) (word rest : Text) :
    (st.report blanks word rest : Act σ ε Unit).Blind st answer :=
  blind_of_run (st.run_report blanks word rest)

/-- What is asked of the files at the start has one answer. -/
theorem Settled.look (question : FileSystem → γ) {y : γ} (hy : ∀ s, kind s → question s.files = y)
    {k : γ → Act σ ε α} (hk : (k y).Settled st answer kind) :
    (get >>= fun s => k (question s.files)).Settled st answer kind := by
  obtain ⟨r, hr⟩ := hk
  refine ⟨r, fun s hfounded hs => ?_⟩
  rw [run_bind, run_get]
  dsimp only
  rw [hy s hs]
  exact hr s hfounded hs

theorem settled_makeParent {p : Path} {g : Path → IoError → ε} {made : Path → Except IoError Unit}
    (h : ∀ d, p.parent? = some d → ∀ s, kind s → (s.files.makeDirectories d).1 = made d) :
    (Setting.makeParent p g : Act σ ε Unit).Settled st answer kind := by
  cases hp : p.parent? with
  | none =>
    unfold Setting.makeParent
    rw [hp]
    exact (blind_pure _).settled
  | some d =>
    refine ⟨.ok ((made d).mapError (g d)), fun s hfounded hs => ?_⟩
    rw [Setting.run_makeParent, hp, ← h d hp s hs]
    exact ⟨rfl, hfounded⟩

section
variable (hanswer : st.toolbox.Answers answer)
include hanswer

theorem blind_invoke (c : Command) (g : ToolFailure → ε) : ((st.invoke c).orElseFail g).Blind st answer := by
  refine Settled.orElseFail ⟨answer c, fun s hfounded _ => ?_⟩ g
  have hc := hanswer c s.files s.tools
  rw [Setting.run_invoke]
  rcases h : st.toolbox.invoke c s.files s.tools with ⟨f | x, files, tools⟩ <;>
    rw [h] at hc <;> exact ⟨hc, hfounded⟩

/-- The sparse selection is set up in the way its command is answered, even if it has been before. -/
theorem blind_setUp (component : Text) : (Component.setUp st component).Blind st answer := by
  refine ⟨(answer (Component.initCommand st)).map fun x =>
    (x.mapError (FetchError.selecting component)).map fun _ => (),
    fun s hfounded _ => ?_⟩
  have hc := hanswer (Component.initCommand st) s.files s.tools
  rw [Component.run_setUp]
  by_cases hready : s.selectionReady = true
  · rw [if_pos hready]
    refine ⟨?_, hfounded⟩
    obtain ⟨o, ho⟩ := hfounded hready
    rw [ho]
    rfl
  · rw [if_neg hready]
    rcases h : st.toolbox.invoke (Component.initCommand st) s.files s.tools with ⟨f | e | o, files, tools⟩ <;>
      rw [h] at hc <;> dsimp only at hc <;> rw [← hc]
    · exact ⟨rfl, hfounded⟩
    · exact ⟨rfl, hfounded⟩
    · exact ⟨rfl, fun _ => ⟨o, hc.symm⟩⟩

end

end Act

/-! ## Components -/

section
variable {b : Benchmark} {F : FileSystem} (hanswer : st.toolbox.Answers answer)
include hanswer

namespace Component

theorem select_blind (component : Text) : (select st component).Blind st answer := by
  refine (Act.blind_invoke hanswer _ _).bind fun output => ?_
  dsimp only
  split
  · exact (Act.blind_invoke hanswer _ _).bind fun _ => Act.blind_pure _
  · exact Act.blind_pure _

theorem update_blind (component : Text) : (update st component).Blind st answer :=
  (Act.blind_invoke hanswer _ _).bind fun _ => (Act.blind_invoke hanswer _ _).bind fun _ => Act.blind_pure _

variable {component : Text} (h : .shim component ∈ b.parts)
include h

theorem clone_settled : (clone st component).Settled st answer fun s => Build.SameFacts st b s.files F := by
  have hparent : (Setting.makeParent st.config.repository.workingCopy FetchError.directory).Settled st answer
      fun s => Build.SameFacts st b s.files F :=
    Act.settled_makeParent fun d hd s hs => hs.made d (.copy h hd)
  refine hparent.andThen fun _ => ?_
  exact (Act.blind_report _ _ _).bind fun _ => (Act.blind_invoke hanswer _ _).bind fun _ => Act.blind_pure _

theorem ensureWorkingCopy_settled :
    (ensureWorkingCopy st component).Settled st answer fun s => Build.SameFacts st b s.files F := by
  refine Act.Settled.look (fun files => files.has st.config.repository.workingCopy) (fun s hs => hs.copy)
    (k := fun present =>
      if !present then (do clone st component; setUp st component) else setUp st component) ?_
  split
  · exact (clone_settled hanswer h).andThen fun _ => Act.blind_setUp hanswer component
  · exact (Act.blind_setUp hanswer component).settled

theorem fetch_settled : (fetch st component).Settled st answer
    fun s => ∀ files, Sees st component s files → Build.SameFacts st b files F := by
  have hask : (ask st component).Settled st answer fun s => Build.SameFacts st b s.files F :=
    (ensureWorkingCopy_settled hanswer h).andThen fun _ =>
      (select_blind hanswer component).bind fun _ => update_blind hanswer component
  obtain ⟨r, hask⟩ := hask
  refine ⟨conclude st component F r, fun s hfounded hs => ?_⟩
  obtain ⟨hr, hfounded'⟩ := hask s hfounded (hs _ .copy)
  rw [run_fetch]
  rcases hrun : (ask st component).run s with ⟨f | e | u, t⟩ <;> rw [hrun] at hr hfounded' <;> subst hr
  · exact ⟨rfl, hfounded'⟩
  · exact ⟨rfl, hfounded'⟩
  · exact ⟨congrArg Except.ok ((hs _ (.directory hrun)).component component h), hfounded'⟩

end Component

/-! ## Builds -/

namespace Build

theorem sandboxSource_blind (source : Path) : (sandboxSource st source).Blind st answer := by
  have hrelative : (relative st source).Blind st answer := by
    unfold relative
    split
    · exact Act.blind_pure _
    · exact Act.blind_throw _
  exact hrelative.bind fun rel => (Act.blind_withExtension _ _).bind fun module =>
    (Act.blind_report _ _ _).bind fun _ =>
    (Act.blind_invoke hanswer _ _).bind fun _ => Act.blind_pure _

theorem shim_blind (directory : Path) : (shim st directory).Blind st answer := by
  unfold shim
  split
  · exact Act.blind_throw _
  · exact (Act.blind_report _ _ _).bind fun _ => (Act.blind_invoke hanswer _ _).bind fun _ =>
      (Act.blind_withExtension _ _).bind fun module => Act.blind_pure _

theorem both_settled (hk : b.kind = .simple) :
    (both st b).Settled st answer fun s => SameFacts st b s.files F := by
  have hsandbox : (sandbox st b).Blind st answer := by
    unfold sandbox
    simp only [hk, ne_eq, not_true_eq_false, if_false]
    exact sandboxSource_blind hanswer b.path
  have hnative : (native st b).Settled st answer fun s => SameFacts st b s.files F := by
    cases hp : program? st b with
    | none =>
      have hr : b.path.stripPrefix? st.config.benchmarkDirectory = none := Option.map_eq_none_iff.1 hp
      refine (Act.blind_of_run (r := .ok (.error (.outside b.path st.config.benchmarkDirectory)))
        fun s => ?_).settled
      unfold native relative
      simp only [hk, hr, ne_eq, not_true_eq_false, if_false]
      exact ⟨s.printed, rfl⟩
    | some program =>
      rw [native_eq hk hp]
      refine (Act.settled_makeParent fun d hd s hs => hs.made d (.program hk hp hd)).andThen fun _ => ?_
      exact (Act.blind_report _ _ _).bind fun _ =>
        (Act.blind_invoke hanswer _ _).bind fun _ => Act.blind_pure _
  exact hnative.andThen fun _ => hsandbox.bind fun _ => Act.blind_pure _

theorem parts_settled {ps : List Part} (h : ps ⊆ b.parts) :
    (parts st ps).Settled st answer fun s => ∀ files, PartsSee st ps s files → SameFacts st b files F := by
  induction ps with
  | nil => exact (Act.blind_pure _).settled
  | cons p ps ih =>
    obtain ⟨hp, hps⟩ := List.cons_subset.1 h
    have hpart : (part st p).Settled st answer
        fun s => ∀ name, p = .shim name → ∀ files, Component.Sees st name s files →
          SameFacts st b files F := by
      cases p with
      | source name =>
        exact ((Act.blind_withExtension _ _).bind fun source => sandboxSource_blind hanswer source).settled
      | shim name =>
        have hfetch := (Component.fetch_settled hanswer hp (F := F)).orElseFail BuildError.fetching
        exact (hfetch.andThen fun directory => shim_blind hanswer directory).imp fun s hs => hs name rfl
    refine (hpart.bind fun artifact => (ih hps).andThen fun artifacts => Act.blind_pure _).imp
      fun s hs => ⟨?_, ?_⟩
    · rintro name rfl files hfiles
      exact hs files (.here hfiles)
    · exact fun artifact t ht files hfiles => hs files (.later ht hfiles)

end Build

/-! ## Executions -/

namespace Execution

theorem native_blind (program : Path) : (native st program).Blind st answer :=
  (Act.blind_report _ _ _).bind fun _ => (Act.blind_invoke hanswer _ _).bind fun _ => Act.blind_pure _

theorem sandboxed_blind (modules : List Path) (p : Platform) : (sandboxed st modules p).Blind st answer := by
  unfold sandboxed
  dsimp only
  split
  · exact (Act.blind_throw _).bind fun _ => (Act.blind_report _ _ _).bind fun _ =>
      (Act.blind_invoke hanswer _ _).bind fun _ => Act.blind_pure _
  · exact (Act.blind_report _ _ _).bind fun _ => (Act.blind_invoke hanswer _ _).bind fun _ => Act.blind_pure _

end Execution

end

/-! ## Files that are kept -/

section
variable {I : FileSystem → Prop}

variable (I) in
def Toolbox.Keeps (t : Toolbox σ) : Prop := ∀ c files tools, I files → I (t.invoke c files tools).2.1

variable (st I) in
def Build.Keeps (b : Benchmark) : Prop := ∀ d files, Prepares st b d → I files → I (files.makeDirectories d).2

variable {b : Benchmark} (htools : st.toolbox.Keeps I) (hbuild : Build.Keeps st I b)
include htools hbuild

theorem Act.Alike.keeps {v : Setting.Variant σ} {wrap : ε → Failure} {Q : α → Prop} {a a' : Act σ ε α}
    (h : Alike st v b wrap Q a a') {s : Session σ} (hs : I s.files) : I (a.run s).2.files := by
  induction h generalizing s with
  | pure | throw | slash => exact hs
  | bind ha hf iha ihf =>
    have hfiles := iha hs
    rw [run_bind]
    rcases hr : Act.run _ s with ⟨f | e | x, t⟩ <;> rw [hr] at hfiles
    · exact hfiles
    · exact hfiles
    · exact ihf x (ha.value (congrArg Prod.fst hr)) hfiles
  | orElseFail ha iha =>
    rw [run_orElseFail]
    exact iha hs
  | report blanks word rest =>
    obtain ⟨printed, h⟩ := st.run_report blanks word rest s
    rw [h]
    exact hs
  | look question k k' hk ih =>
    rw [run_bind, run_get]
    exact ih s.files hs
  | makeDirectories hp =>
    rw [Setting.run_makeDirectories]
    exact hbuild _ _ hp hs
  | @setUp component hc =>
    have hfiles := htools (Component.initCommand st) _ s.tools hs
    rw [Component.run_setUp]
    split
    · exact hs
    · rcases h : st.toolbox.invoke (Component.initCommand st) s.files s.tools
        with ⟨f | e | o, files, tools⟩ <;>
        rw [h] at hfiles <;> exact hfiles
  | @invoke u =>
    have hfiles := htools (u.command st) _ s.tools hs
    rw [Setting.run_invoke]
    rcases h : st.toolbox.invoke (u.command st) s.files s.tools with ⟨f | x, files, tools⟩ <;>
      rw [h] at hfiles <;>
      exact hfiles

theorem Component.Sees.keeps {component : Text} (hc : .shim component ∈ b.parts) {s : Session σ}
    (hs : I s.files) {files : FileSystem} (h : Sees st component s files) : I files := by
  cases h with
  | copy => exact hs
  | directory h =>
    have hfiles := (ask_alike (v := ⟨st.quiet, st.toolbox⟩) hc).keeps htools hbuild hs
    rw [h] at hfiles
    exact hfiles

theorem Build.PartsSee.keeps {ps : List Part} (hps : ps ⊆ b.parts) {s : Session σ} (hs : I s.files)
    {files : FileSystem} (h : PartsSee st ps s files) : I files := by
  induction h with
  | here h => exact h.keeps htools hbuild (List.cons_subset.1 hps).1 hs
  | later hp h ih =>
    obtain ⟨hp', hps⟩ := List.cons_subset.1 hps
    have hfiles := (part_alike (v := ⟨st.quiet, st.toolbox⟩) hp').keeps htools hbuild hs
    rw [hp] at hfiles
    exact ih hps hfiles

theorem Build.Sees.keeps {s : Session σ} (hs : I s.files) {files : FileSystem}
    (h : Sees st b s files) : I files := by
  cases h with
  | simple => exact hs
  | composite _ h => exact h.keeps htools hbuild (List.Subset.refl _) hs

end

end

end TriBench
