import TriBench.Proofs.Arguments.Spelling
import TriBench.Proofs.CommandLine.Faults
import TriBench.Proofs.FileSystem.Places
import TriBench.Proofs.Run.Isolation

/-!
# Exit codes

Where no fault ends it, a program fails for its arguments, for its configuration or for the file of
its report. Main statement: `exit_code_from_settings`, and whatever becomes of the benchmarks does
not matter.
-/

namespace TriBench

/-- Whether a report gets into its file does not depend on the report. -/
theorem Report.exists_write_iff {fs : FileSystem} {p : Path} (report : Text) :
    (∃ fs', Report.write fs p report = .ok fs') ↔ fs.CanHold p := by
  rw [← FileSystem.exists_writeFile_iff report.toBytes]
  unfold Report.write
  cases fs.writeFile p report.toBytes <;> simp [Except.mapError]

/-- The tools take nothing away from under the path, and a file there stays one. -/
def Toolbox.Leaves {σ : Type} (t : Toolbox σ) (p : Path) : Prop :=
  ∀ c files tools, files.has p = true →
    (t.invoke c files tools).2.1.has p = true ∧ (t.invoke c files tools).2.1.isFile p = files.isFile p

namespace CommandLine

/-! ## What is accepted -/

def Given (fs : FileSystem) (a : Arguments) (given : Config) : Prop :=
  match a.config with
  | none => given = {}
  | some p => Config.load fs p = .ok given

structure Accepted (fs : FileSystem) (a : Arguments) (c : Config) : Prop where
  volume : ¬ (a.verbose = true ∧ a.quiet = true)
  limit : a.timeout ≠ some 0
  resolved : ∃ given, Given fs a given ∧
    Config.resolve fs.workingPath { given with timeout := a.timeout.getD given.timeout } = .ok c

theorem mapError_eq_ok_iff {ε δ α : Type} {x : Except ε α} {f : ε → δ} {y : α} :
    x.mapError f = .ok y ↔ x = .ok y := by
  cases x <;> simp [Except.mapError]

theorem configure_eq_ok_iff {fs : FileSystem} {a : Arguments} {c : Config} : configure fs a = .ok c ↔
    ∃ given, Given fs a given ∧
      Config.resolve fs.workingPath { given with timeout := a.timeout.getD given.timeout } = .ok c := by
  unfold configure Given
  cases a.config with
  | none =>
    rw [exists_eq_left]
    exact mapError_eq_ok_iff
  | some p =>
    dsimp only
    cases Config.load fs p with
    | error e => exact iff_of_false nofun (by rintro ⟨given, hgiven, -⟩; cases hgiven)
    | ok given =>
      simp only [Except.ok.injEq, exists_eq_left']
      exact mapError_eq_ok_iff

theorem accepted_iff {fs : FileSystem} {a : Arguments} {c : Config} :
    Accepted fs a c ↔ a.validate = .ok a ∧ configure fs a = .ok c := by
  rw [Arguments.validate_eq_ok_iff, configure_eq_ok_iff]
  constructor
  · rintro ⟨hvolume, hlimit, hresolved⟩
    exact ⟨⟨rfl, hvolume, hlimit⟩, hresolved⟩
  · rintro ⟨⟨-, hvolume, hlimit⟩, hresolved⟩
    exact ⟨hvolume, hlimit, hresolved⟩

section
variable {σ : Type} {env : Environment σ} {a : Arguments} {c : Config}

variable (env a c) in
/-- The files after the benchmarks and before the report. -/
def filesAfter : FileSystem := (runOf env a c).2.session.files

variable (env a) in
def Unharmed : Prop := ∀ c, Accepted env.files a c → ∀ f, (runOf env a c).1 ≠ .error f

theorem runArguments_of_not_accepted (h : ¬ ∃ c, Accepted env.files a c) :
    ∃ e, runArguments env a = failed { code := 0, files := env.files } e := by
  unfold runArguments
  cases hvalid : a.validate with
  | error e => exact ⟨_, rfl⟩
  | ok a' =>
    obtain rfl := (Arguments.validate_eq_ok_iff.1 hvalid).1
    dsimp only
    cases hconfigure : configure env.files a' with
    | error e => exact ⟨_, rfl⟩
    | ok c => exact absurd ⟨c, accepted_iff.2 ⟨hvalid, hconfigure⟩⟩ h

theorem code_runWith_of_ok (h : (runOf env a c).1 = .ok (.ok ())) :
    (runWith env a c).code = 0 ∧ (∀ p, a.out = some p → (filesAfter env a c).CanHold p) ∨
      (runWith env a c).code = 1 ∧ ∃ p, a.out = some p ∧ ¬ (filesAfter env a c).CanHold p := by
  unfold filesAfter
  rcases hrun : runOf env a c with ⟨r, g⟩
  rw [hrun] at h
  dsimp only at h
  subst h
  unfold runOf settingOf at hrun
  unfold runWith deliver
  dsimp only
  rw [hrun]
  cases a.out with
  | none => exact .inl ⟨rfl, by simp⟩
  | some p =>
    dsimp only
    cases hwrite : Report.write g.session.files p (Report.structured g.results) with
    | ok fs =>
      refine .inl ⟨rfl, ?_⟩
      rintro _ ⟨⟩
      exact (Report.exists_write_iff _).1 ⟨fs, hwrite⟩
    | error e =>
      refine .inr ⟨rfl, p, rfl, fun hhold => ?_⟩
      obtain ⟨fs, hfs⟩ := (Report.exists_write_iff _).2 hhold
      rw [hwrite] at hfs
      cases hfs

theorem Unharmed.ends (h : Unharmed env a) (hc : Accepted env.files a c) :
    (runOf env a c).1 = .ok (.ok ()) := by
  rcases Run.all_runs (settingOf env a c) a.verbose a.prefixes
    { session := { files := env.files, tools := env.tools } } with
    ⟨f, hf, -⟩ | hok
  · exact absurd hf (h c hc f)
  · exact hok

theorem code_of_accepted (h : Unharmed env a) (hc : Accepted env.files a c) :
    (runArguments env a).code = 0 ∧ (∀ p, a.out = some p → (filesAfter env a c).CanHold p) ∨
      (runArguments env a).code = 1 ∧ ∃ p, a.out = some p ∧ ¬ (filesAfter env a c).CanHold p := by
  obtain ⟨hvalid, hconfigure⟩ := accepted_iff.1 hc
  rw [runArguments_of_accepted hvalid hconfigure]
  exact code_runWith_of_ok (h.ends hc)

theorem Accepted.unique {fs : FileSystem} {c' : Config} (h : Accepted fs a c)
    (h' : Accepted fs a c') : c = c' :=
  Except.ok.inj ((accepted_iff.1 h).2.symm.trans (accepted_iff.1 h').2)

theorem code_runArguments_eq_zero_iff (h : Unharmed env a) : (runArguments env a).code = 0 ↔
    ∃ c, Accepted env.files a c ∧ ∀ p, a.out = some p → (filesAfter env a c).CanHold p := by
  by_cases haccepted : ∃ c, Accepted env.files a c
  · obtain ⟨c, hc⟩ := haccepted
    rcases code_of_accepted h hc with ⟨hcode, hhold⟩ | ⟨hcode, p, hp, hhold⟩
    · exact iff_of_true hcode ⟨c, hc, hhold⟩
    · refine iff_of_false (by rw [hcode]; decide) ?_
      rintro ⟨c', hc', hhold'⟩
      rw [hc.unique hc'] at hhold
      exact hhold (hhold' p hp)
  · obtain ⟨e, he⟩ := runArguments_of_not_accepted haccepted
    rw [he]
    exact iff_of_false Nat.one_ne_zero fun ⟨c, hc, _⟩ => haccepted ⟨c, hc⟩

theorem code_runArguments_of_ne_zero (h : Unharmed env a) (hne : (runArguments env a).code ≠ 0) :
    (runArguments env a).code = 1 := by
  by_cases haccepted : ∃ c, Accepted env.files a c
  · obtain ⟨c, hc⟩ := haccepted
    rcases code_of_accepted h hc with ⟨hcode, -⟩ | ⟨hcode, -⟩
    · exact absurd hcode hne
    · exact hcode
  · obtain ⟨e, he⟩ := runArguments_of_not_accepted haccepted
    rw [he]
    rfl

/-- What is under a path when the program starts is there after its benchmarks, if the tools leave it. -/
theorem isFile_filesAfter {p : Path} (hp : env.files.has p = true)
    (hleaves : (env.toolbox c.tools.elevation).Leaves p) :
    (filesAfter env a c).has p = true ∧ (filesAfter env a c).isFile p = env.files.isFile p := by
  have htools : (settingOf env a c).toolbox.Keeps fun fs =>
    fs.has p = true ∧ fs.isFile p = env.files.isFile p := by
    rintro command files tools ⟨hhas, hfile⟩
    obtain ⟨hhas', hfile'⟩ := hleaves command files tools hhas
    exact ⟨hhas', hfile'.trans hfile⟩
  refine Run.all_keeps htools a.prefixes ?_ ⟨hp, rfl⟩
  rintro b d files - ⟨hhas, hfile⟩
  have hstat := FileSystem.stat?_makeDirectories d hhas
  unfold FileSystem.has FileSystem.isFile at *
  rw [hstat]
  exact ⟨hhas, hfile⟩

theorem unharmed_of_safe {latest : Nat} (hclock : ∀ elevation, (env.toolbox elevation).Timed elevation latest)
    (hsafe : ∀ c, Accepted env.files a c → ∀ f, ¬ c.Endangers latest f) : Unharmed env a := by
  intro c hc f hf
  rcases Run.all_runs (settingOf env a c) a.verbose a.prefixes
    { session := { files := env.files, tools := env.tools } } with
    ⟨f', -, hrisks⟩ | hok
  · exact hsafe c hc f' (hrisks.endangers (hclock _))
  · rw [runOf, hok] at hf
    cases hf

end

/-- **Exit codes.** Where no fault ends it, a program fails if its arguments are not valid, its
configuration is not read or does not resolve, or no file for its report can be written after its
benchmarks; otherwise it succeeds. Without an accepted configuration it gives no command. Under
other tools, whatever they answer and however many benchmarks are skipped then, it ends with the
same code, unless these tools leave another place for the report; where something is under the path
of the report from the start and is left there, the code is known from the start. No discovery
fails, because what is escaped, with one star behind, always is a pattern. -/
theorem exit_code_from_settings {σ : Type} (env : Environment σ) (args : List Text) (a : Arguments)
    (hparse : Arguments.parse args = .ok a) (hfault : Unharmed env a) :
    ((run env args).code = 0 ↔
        ∃ c, Accepted env.files a c ∧ ∀ p, a.out = some p → (filesAfter env a c).CanHold p) ∧
      ((run env args).code ≠ 0 → (run env args).code = 1) ∧
      ((¬ ∃ c, Accepted env.files a c) → (run env args).calls = [] ∧ (run env args).files = env.files) ∧
      (∀ (σ' : Type) (env' : Environment σ'), env'.files = env.files → Unharmed env' a →
        (∀ c p, Accepted env.files a c → a.out = some p →
          ((filesAfter env' a c).CanHold p ↔ (filesAfter env a c).CanHold p)) →
        (run env' args).code = (run env args).code) ∧
      (∀ c p, Accepted env.files a c → a.out = some p → env.files.has p = true →
        (env.toolbox c.tools.elevation).Leaves p → ((run env args).code = 0 ↔ env.files.isFile p = true)) ∧
      (∀ fs c prefixes, ∃ paths, Discovery.discover fs c prefixes = .ok paths) ∧
      ∀ directory start, let pattern := Glob.escape directory ++ '/' :: Glob.escape start ++ ['*']
        (∃ p, Glob.parse pattern = .ok p) ∧ ∀ fs, ∃ paths, Glob.expand fs pattern = .ok paths := by
  have hrun : ∀ {σ' : Type} (env' : Environment σ'), run env' args = runArguments env' a := by
    intro σ' env'
    rw [run, hparse]
  simp only [hrun]
  refine ⟨code_runArguments_eq_zero_iff hfault, code_runArguments_of_ne_zero hfault,
    fun h => ?_, ?_, ?_, ?_, ?_⟩
  · obtain ⟨e, he⟩ := runArguments_of_not_accepted h
    rw [he]
    exact ⟨rfl, rfl⟩
  · intro σ' env' hfiles hfault' hhold
    have hiff := code_runArguments_eq_zero_iff hfault'
    rw [hfiles] at hiff
    -- the codes are 0 or 1, and it is the place of the report that decides
    have hzero : (runArguments env' a).code = 0 ↔ (runArguments env a).code = 0 := by
      rw [hiff, code_runArguments_eq_zero_iff hfault]
      refine exists_congr fun c => and_congr_right fun hc => forall_congr' fun p =>
        imp_congr_right fun hp => ?_
      exact hhold c p hc hp
    by_cases hcode : (runArguments env a).code = 0
    · rw [hcode, hzero.2 hcode]
    · rw [code_runArguments_of_ne_zero hfault hcode,
        code_runArguments_of_ne_zero hfault' fun h => hcode (hzero.1 h)]
  · intro c p hc hout hp hleaves
    obtain ⟨hhas, hfile⟩ := isFile_filesAfter (a := a) hp hleaves
    rw [← hfile, ← FileSystem.canHold_iff_isFile hhas, code_runArguments_eq_zero_iff hfault]
    constructor
    · rintro ⟨c', hc', hhold⟩
      rw [hc.unique hc']
      exact hhold p hout
    · intro hhold
      refine ⟨c, hc, fun p' hp' => ?_⟩
      rw [hout] at hp'
      cases hp'
      exact hhold
  · intro fs c prefixes
    obtain ⟨paths, hpaths, -⟩ := Discovery.discover_eq_ok fs c prefixes
    exact ⟨paths, hpaths⟩
  · intro directory start
    refine ⟨⟨_, Discovery.parse_pattern directory start⟩, fun fs => ?_⟩
    obtain ⟨_, _, -, hexpand⟩ := Discovery.expand_pattern { benchmarkDirectory := ⟨directory⟩ } start fs
    exact ⟨_, hexpand⟩

theorem promptTools_leaves (now : Nat) (elevation : Text) (p : Path) :
    (promptTools now elevation).Leaves p := by
  intro c files tools hp
  unfold promptTools
  dsimp only
  split <;> exact ⟨hp, rfl⟩

/-- A program succeeds whose benchmarks report nothing, and fails with a directory for its report. -/
theorem exit_code_from_settings_composites :
    let quiet (out : Option Path) : Arguments := { quiet := true, out }
    (∀ out, Unharmed composites (quiet out)) ∧ (∀ elevation p, (composites.toolbox elevation).Leaves p) ∧
      Arguments.parse ["-q"] = .ok (quiet none) ∧
      Arguments.parse ["-q", "--out", "/"] = .ok (quiet (some "/")) ∧
      (run composites ["-q"]).code = 0 ∧ (run composites ["-q", "--out", "/"]).code = 1 := by
  intro quiet
  have haccepted : ∀ out, Accepted composites.files (quiet out) Build.inWork :=
    fun out => accepted_iff.2 ⟨rfl, rfl⟩
  have hunharmed : ∀ out, Unharmed composites (quiet out) := by
    intro out
    refine unharmed_of_safe (promptTools_timed 1000) fun c hc f hf => ?_
    rw [← (haccepted out).unique hc] at hf
    cases hf with
    | deadline h => exact absurd h (by decide)
    | slash hmem h =>
      have hnone : ∀ e ∈ [Build.inWork.sourceExtension, Build.inWork.moduleExtension], '/' ∉ e := by decide
      exact hnone _ hmem h
  have hleaves : ∀ elevation p, (composites.toolbox elevation).Leaves p := promptTools_leaves 1000
  have hparse : Arguments.parse ["-q"] = .ok (quiet none) := rfl
  have hparseRoot : Arguments.parse ["-q", "--out", "/"] = .ok (quiet (some "/")) := rfl
  have hroot : composites.files.has "/" = true ∧ composites.files.isFile "/" = false := ⟨by cbv, by cbv⟩
  refine ⟨hunharmed, hleaves, hparse, hparseRoot, ?_, ?_⟩
  · refine (exit_code_from_settings composites _ _ hparse (hunharmed none)).1.2
      ⟨_, haccepted none, fun p hp => ?_⟩
    cases hp
  · obtain ⟨-, hone, -, -, hcode, -⟩ :=
      exit_code_from_settings composites _ _ hparseRoot (hunharmed (some "/"))
    refine hone fun h => ?_
    have hwritten := (hcode _ "/" (haccepted _) rfl hroot.1 (hleaves _ "/")).1 h
    rw [hroot.2] at hwritten
    cases hwritten

end CommandLine

end TriBench
