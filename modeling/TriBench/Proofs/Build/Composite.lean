import TriBench.Proofs.Build.Commands
import TriBench.Proofs.Component.Protocol

/-!
# Composites

The parts of a composite are built in order, each in the session that the one before has left, until one of
them fails. Main statement: `parts_logs`, the log is that of the parts that were built and of the one that
failed, and artifacts come of it only if there was none.
-/

namespace TriBench

def Part.target : Part → Target
  | source _ => .sandbox
  | shim _ => .sandboxShim

namespace Build

section
variable {σ : Type} (st : Setting σ)

/-! ## One part -/

def sourceOf (name : Text) : Path :=
  (st.config.benchmarkDirectory.join ⟨name⟩).replaceExtension st.config.sourceExtension

/-- The module of a source goes by its path from the benchmark directory. One command makes it. -/
inductive SourceLog (source : Path) : Ending BuildError Artifact → List Call → Prop
  | outside (h : source.stripPrefix? st.config.benchmarkDirectory = none) :
    SourceLog source (.ok (.error (.outside source st.config.benchmarkDirectory))) []
  | fault {f : Fault} (hf : st.CanMeet f) : SourceLog source (.error f) []
  | failed {rel : Path} (h : source.stripPrefix? st.config.benchmarkDirectory = some rel) (e : ToolFailure) :
    SourceLog source (.ok (.error (.toolchain source e))) [⟨sandboxCommand st source, .error e⟩]
  | built {rel : Path} (h : source.stripPrefix? st.config.benchmarkDirectory = some rel) (o : ToolOutput) :
    SourceLog source (.ok (.ok ⟨.sandbox, rel.replaceExtension st.config.moduleExtension⟩))
      [⟨sandboxCommand st source, .ok o⟩]

/-- The module of a shim goes by the name of its directory. One command makes it. -/
inductive ShimLog (directory : Path) : Ending BuildError Artifact → List Call → Prop
  | unnamed (h : directory.fileName? = none) : ShimLog directory (.ok (.error (.componentName directory))) []
  | fault {f : Fault} (hf : st.CanMeet f) : ShimLog directory (.error f) []
  | failed {name : Text} (h : directory.fileName? = some name) (e : ToolFailure) :
    ShimLog directory (.ok (.error (.toolchain directory e))) [⟨shimCommand st directory, .error e⟩]
  | slash (h : '/' ∈ st.config.moduleExtension) (o : ToolOutput) :
    ShimLog directory (.error (.slashInExtension st.config.moduleExtension))
      [⟨shimCommand st directory, .ok o⟩]
  | built {name : Text} (h : directory.fileName? = some name) (o : ToolOutput) :
    ShimLog directory (.ok (.ok ⟨.sandboxShim, Path.replaceExtension ⟨name⟩ st.config.moduleExtension⟩))
      [⟨shimCommand st directory, .ok o⟩]

/-- The log of a part that is built in a session. A shim is fetched before it is built. -/
inductive PartLog (s : Session σ) : Part → Ending BuildError Artifact → List Call → Prop
  | slash (name : Text) (h : '/' ∈ st.config.sourceExtension) :
    PartLog s (.source name) (.error (.slashInExtension st.config.sourceExtension)) []
  | source {name : Text} {r : Ending BuildError Artifact} {new : List Call}
    (h : SourceLog st (sourceOf st name) r new) : PartLog s (.source name) r new
  | fetchFault {name : Text} {f : Fault} (h : (Component.fetched st name s).ending = .error f) :
    PartLog s (.shim name) (.error f) (Component.fetched st name s).calls
  | unfetched {name : Text} {e : FetchError} (h : (Component.fetched st name s).ending = .ok (.error e)) :
    PartLog s (.shim name) (.ok (.error (.fetching e))) (Component.fetched st name s).calls
  | shim {name : Text} {directory : Path} {r : Ending BuildError Artifact} {new : List Call}
    (h : (Component.fetched st name s).ending = .ok (.ok directory)) (hs : ShimLog st directory r new) :
    PartLog s (.shim name) r ((Component.fetched st name s).calls ++ new)

theorem PartLog.target_eq {s : Session σ} {p : Part} {a : Artifact} {new : List Call}
    (h : PartLog st s p (.ok (.ok a)) new) : a.target = p.target := by
  cases h with
  | source h => cases h; rfl
  | shim _ hs => cases hs; rfl

theorem sandboxSource_logs (source : Path) : (sandboxSource st source).Logs (SourceLog st source) := by
  intro s
  cases h : source.stripPrefix? st.config.benchmarkDirectory with
  | none =>
    unfold sandboxSource relative Act.LogsFrom
    rw [h]
    exact ⟨[], by simp, .outside h⟩
  | some rel =>
    obtain ⟨new, hnew, hgives⟩ := sandboxSource_gives st h s
    refine ⟨new, hnew, ?_⟩
    rcases hgives with ⟨answer, hr, rfl⟩ | ⟨f, hf, hr, rfl⟩ <;> rw [hr]
    · cases answer with
      | error e => exact .failed h e
      | ok o => exact .built h o
    · exact .fault hf

theorem shim_logs (directory : Path) : (shim st directory).Logs (ShimLog st directory) := by
  intro s
  unfold shim Act.LogsFrom reportCompiling
  cases hn : directory.fileName? with
  | none => exact ⟨[], by simp, .unnamed hn⟩
  | some name =>
    obtain ⟨printed, hp⟩ := st.run_report (ε := BuildError) 3 "Compiling"
      (directory.quoted ++ " (" ++ Target.sandboxShim.name ++ [')']) s
    dsimp only
    rw [Act.run_bind, hp]
    dsimp only
    rw [Act.run_bind, Setting.run_invoke_orElseFail]
    rcases ht : st.toolbox.invoke (shimCommand st directory) s.files s.tools
      with ⟨f | e | o, files, tools⟩ <;>
      dsimp only
    · exact ⟨[], by simp, .fault (.inl ⟨_, s.files, s.tools, by rw [ht]⟩)⟩
    · exact ⟨_, rfl, .failed hn e⟩
    · -- the extension is looked at only when the command has succeeded
      by_cases hs : '/' ∈ st.config.moduleExtension
      · rw [Act.withExtension_of_slash hs]
        exact ⟨_, rfl, .slash hs o⟩
      · rw [Act.withExtension_of_no_slash hs]
        exact ⟨_, rfl, .built hn o⟩

theorem part_logs (p : Part) (s : Session σ) : (part st p).LogsFrom s (PartLog st s p) := by
  cases p with
  | source name =>
    simp only [part]
    by_cases hs : '/' ∈ st.config.sourceExtension
    · rw [Act.withExtension_of_slash hs]
      exact ⟨[], by simp [Act.run_bind], .slash name hs⟩
    · rw [Act.withExtension_of_no_slash hs, pure_bind]
      obtain ⟨new, hnew, h⟩ := sandboxSource_logs st (sourceOf st name) s
      exact ⟨new, hnew, .source h⟩
  | shim name =>
    obtain ⟨_, _, hcalls, -⟩ := Component.fetched_follows st name s
    have hfetch : (Component.fetch st name).run s =
      ((Component.fetched st name s).ending, (Component.fetched st name s).after) := rfl
    simp only [part]
    unfold Act.LogsFrom
    rw [Act.run_bind, Act.run_orElseFail, hfetch]
    rcases h : (Component.fetched st name s).ending with f | e | directory
    · exact ⟨_, hcalls, .fetchFault h⟩
    · exact ⟨_, hcalls, .unfetched h⟩
    · obtain ⟨new, hnew, hs⟩ := shim_logs st directory (Component.fetched st name s).after
      exact ⟨_, by rw [← List.append_assoc, ← hcalls]; exact hnew, .shim h hs⟩

/-! ## All parts -/

structure PartRun (p : Part) (s : Session σ) (r : Ending BuildError Artifact) (new : List Call)
    (s' : Session σ) : Prop where
  run : (part st p).run s = (r, s')
  calls : s'.calls = s.calls ++ new
  log : PartLog st s p r new

structure Built (σ : Type) where
  part : Part
  before : Session σ
  artifact : Artifact
  calls : List Call
  after : Session σ

inductive Chain : Session σ → List (Built σ) → Session σ → Prop
  | nil (s : Session σ) : Chain s [] s
  | cons {b : Built σ} {bs : List (Built σ)} {s : Session σ}
    (hb : PartRun st b.part b.before (.ok (.ok b.artifact)) b.calls b.after) (h : Chain b.after bs s) :
    Chain b.before (b :: bs) s

variable {st} in
theorem Chain.targets {s s' : Session σ} {bs : List (Built σ)} (h : Chain st s bs s') :
    (bs.map Built.artifact).map Artifact.target = (bs.map Built.part).map Part.target := by
  induction h with
  | nil => rfl
  | cons hb _ ih => simp only [List.map_cons, ih, hb.log.target_eq]

/-- All that can happen when parts are built from a session on. -/
inductive Order (s : Session σ) : List Part → Ending BuildError (List Artifact) → List Call → Prop
  | built {bs : List (Built σ)} {s' : Session σ} (h : Chain st s bs s') :
    Order s (bs.map Built.part) (.ok (.ok (bs.map Built.artifact))) (bs.flatMap Built.calls)
  | failed {bs : List (Built σ)} {s' : Session σ} (h : Chain st s bs s') {p : Part} (later : List Part)
    {e : BuildError} {new : List Call} {s'' : Session σ} (hp : PartRun st p s' (.ok (.error e)) new s'') :
    Order s (bs.map Built.part ++ p :: later) (.ok (.error e)) (bs.flatMap Built.calls ++ new)
  | fault {bs : List (Built σ)} {s' : Session σ} (h : Chain st s bs s') {p : Part} (later : List Part)
    {f : Fault} {new : List Call} {s'' : Session σ} (hp : PartRun st p s' (.error f) new s'') :
    Order s (bs.map Built.part ++ p :: later) (.error f) (bs.flatMap Built.calls ++ new)

variable {st} in
/-- There is one artifact for each part, of its target. -/
theorem Order.targets {s : Session σ} {ps : List Part} {artifacts : List Artifact} {new : List Call}
    (h : Order st s ps (.ok (.ok artifacts)) new) : artifacts.map Artifact.target = ps.map Part.target := by
  cases h with
  | built hchain => exact hchain.targets

theorem Order.cons {b : Built σ} (hb : PartRun st b.part b.before (.ok (.ok b.artifact)) b.calls b.after)
    {ps : List Part} {r : Ending BuildError (List Artifact)} {new : List Call}
    (h : Order st b.after ps r new) :
    Order st b.before (b.part :: ps) (r.map (·.map (b.artifact :: ·))) (b.calls ++ new) := by
  cases h with
  | built h => exact .built (.cons hb h)
  | failed h later hp =>
    rw [← List.append_assoc]
    exact .failed (.cons hb h) later hp
  | fault h later hp =>
    rw [← List.append_assoc]
    exact .fault (.cons hb h) later hp

theorem parts_logs (ps : List Part) (s : Session σ) : (parts st ps).LogsFrom s (Order st s ps) := by
  induction ps generalizing s with
  | nil => exact ⟨[], by simp [parts], .built (.nil s)⟩
  | cons p ps ih =>
    obtain ⟨new, hnew, hlog⟩ := part_logs st p s
    simp only [parts]
    unfold Act.LogsFrom
    rw [Act.run_bind]
    rcases h : (part st p).run s with ⟨f | e | a, s'⟩ <;> rw [h] at hnew hlog <;> dsimp only at hnew hlog ⊢
    · exact ⟨new, hnew, .fault (.nil s) ps ⟨h, hnew, hlog⟩⟩
    · exact ⟨new, hnew, .failed (.nil s) ps ⟨h, hnew, hlog⟩⟩
    · -- the rest is built from the session that this part has left, so the chain grows at its front
      obtain ⟨new', hnew', horder⟩ := ih s'
      have hcons := Order.cons st (b := ⟨p, s, a, new, s'⟩) ⟨h, hnew, hlog⟩ horder
      have hcalls : ((parts st ps).run s').2.calls = s.calls ++ (new ++ new') := by
        rw [hnew', hnew, List.append_assoc]
      refine ⟨new ++ new', ?_⟩
      rw [Act.run_bind]
      rcases hr : (parts st ps).run s' with ⟨f | e | artifacts, s''⟩ <;> rw [hr] at hcalls hcons <;>
        exact ⟨hcalls, hcons⟩

end

end Build

end TriBench
