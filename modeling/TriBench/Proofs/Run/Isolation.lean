import Mathlib.Data.List.Forall2
import TriBench.Proofs.Build.Confinement
import TriBench.Proofs.Build.Steady
import TriBench.Proofs.Run.Alike
import TriBench.Proofs.Run.Elements
import TriBench.Proofs.Tally.Counters

/-!
# Benchmarks on their own

Where the tools answer each command in one way and the facts are steady, a benchmark comes to the
same element in every run, wherever it stands in it, as in a run of its own. Main statement:
`element_alone`.
-/

namespace TriBench.Run

section
variable {σ ε α β : Type} {st : Setting σ} {answer : Command → Except Fault Answer}
    {F : FileSystem} {b : Benchmark}

/-! ## Steps -/

variable (st answer) in
/-- There is one way for the step to end, if it comes from progress of the kind, and it leaves the
tally as it is. -/
def Settled (kind : Progress σ → Prop) (m : Running σ α) : Prop :=
  ∃ r, ∀ g, g.session.Founded st answer → kind g →
    (m.run.run g).1 = r ∧ (m.run.run g).2.session.Founded st answer ∧ (m.run.run g).2.tally = g.tally

variable {kind kind' : Progress σ → Prop}

theorem settled_imp {m : Running σ α} (h : Settled st answer kind m) (hkind : ∀ g, kind' g → kind g) :
    Settled st answer kind' m := by
  obtain ⟨r, h⟩ := h
  exact ⟨r, fun g hfounded hg => h g hfounded (hkind g hg)⟩

theorem settled_pure (x : α) : Settled st answer kind (pure x : Running σ α) :=
  ⟨.ok x, fun _ hfounded _ => ⟨rfl, hfounded, rfl⟩⟩

theorem settled_bind {m : Running σ α} {k : α → Running σ β} (hm : Settled st answer kind m)
    (hk : ∀ x, Settled st answer (fun _ => True) (k x)) : Settled st answer kind (m >>= k) := by
  obtain ⟨r, hm⟩ := hm
  choose rs hk using hk
  refine ⟨match r with
    | .ok x => rs x
    | .error f => .error f, fun g hfounded hg => ?_⟩
  obtain ⟨hr, hfounded', htally⟩ := hm g hfounded hg
  rw [run_bind]
  rcases hrun : m.run.run g with ⟨f | x, g'⟩ <;> rw [hrun] at hr hfounded' htally <;> subst hr
  · exact ⟨rfl, hfounded', htally⟩
  · obtain ⟨hr, hfounded'', htally'⟩ := hk x g' hfounded' trivial
    exact ⟨hr, hfounded'', htally'.trans htally⟩

theorem settled_attempt {a : Act σ ε α} {kind : Session σ → Prop} (h : a.Settled st answer kind) :
    Settled st answer (fun g => kind g.session) (attempt a) := by
  obtain ⟨r, h⟩ := h
  refine ⟨r, fun g hfounded hg => ?_⟩
  obtain ⟨hr, hfounded'⟩ := h g.session hfounded hg
  rw [run_attempt]
  exact ⟨hr, hfounded', rfl⟩

/-- An output is taken or not, whatever the results hold already. -/
theorem settled_take (p : Platform) (output : Text) : Settled st answer kind (take p output) := by
  cases hs : Sample.parseBatch output with
  | error e =>
    refine ⟨.ok (p, .error (.malformedOutput p e)), fun g hfounded _ => ?_⟩
    rw [run_take, hs]
    exact ⟨rfl, hfounded, rfl⟩
  | ok samples =>
    refine ⟨.ok (p, .ok ()), fun g hfounded _ => ?_⟩
    rw [run_take, hs]
    exact ⟨rfl, hfounded, rfl⟩

theorem settled_measure {execution : Act σ RunError Text} (h : execution.Blind st answer) (p : Platform) :
    Settled st answer (fun _ => True) (measure p execution) := by
  refine settled_bind (settled_attempt h) fun r => ?_
  cases r with
  | error e => exact settled_pure _
  | ok output => exact settled_take p output

variable (hanswer : st.toolbox.Answers answer)
include hanswer

theorem settled_execute : Settled st answer
    (fun g => ∀ files, Build.Sees st b g.session files → Build.SameFacts st b files F) (execute st b) := by
  unfold execute
  cases hk : b.kind with
  | simple =>
    have hbuild := settled_attempt (Build.both_settled hanswer hk (F := F))
    refine settled_imp (settled_bind hbuild fun r => ?_) fun g hg => hg _ (.simple hk)
    cases r with
    | error e => exact settled_pure _
    | ok built =>
      refine settled_bind (settled_measure (Execution.sandboxed_blind hanswer _ _) _) fun lind => ?_
      exact settled_bind (settled_measure (Execution.native_blind hanswer _) _) fun linux => settled_pure _
  | composite =>
    have hbuild := settled_attempt (Build.parts_settled hanswer (List.Subset.refl b.parts) (F := F))
    refine settled_imp (settled_bind hbuild fun r => ?_) fun g hg files h => hg files (.composite hk h)
    cases r with
    | error e => exact settled_pure _
    | ok artifacts =>
      exact settled_bind (settled_measure (Execution.sandboxed_blind hanswer _ _) _) fun grate =>
        settled_pure _

end

/-! ## Benchmarks -/

section
variable {σ : Type} (st : Setting σ) (F : FileSystem) (verbose : Bool)

inductive Sees : List Path → Progress σ → Benchmark → FileSystem → Prop
  | here {p : Path} {paths : List Path} {g : Progress σ} {b : Benchmark}
    (hb : Benchmark.ofPath st.config p = .ok b) {printed : Text} {files : FileSystem}
    (h : Build.Sees st b { g.session with printed } files) : Sees (p :: paths) g b files
  | later {p : Path} {paths : List Path} {g g' : Progress σ} {b : Benchmark} {files : FileSystem}
    (hp : (benchmark st verbose p).run.run g = (.ok (), g')) (h : Sees paths g' b files) :
    Sees (p :: paths) g b files

def Steady (paths : List Path) (g : Progress σ) : Prop :=
  ∀ b files, Sees st verbose paths g b files → Build.SameFacts st b files F

def Comes (answer : Command → Except Fault Answer) (p : Path) (r : Except Fault Element) : Prop :=
  ∀ verbose g, g.session.Founded st answer → Steady st F verbose [p] g →
    let run := (benchmark st verbose p).run.run g
    run.1 = r.map (fun _ => ()) ∧ run.2.session.Founded st answer ∧ run.2.tally = tallied g.tally r

variable {st F verbose} {answer : Command → Except Fault Answer} {r : Path → Except Fault Element}

theorem exists_comes (hanswer : st.toolbox.Answers answer) (p : Path) : ∃ r, Comes st F answer p r := by
  cases hb : Benchmark.ofPath st.config p with
  | error e =>
    refine ⟨.ok ⟨p.text, .skipped [.ofBuild (.definition e)]⟩, fun verbose g hfounded _ => ?_⟩
    unfold benchmark
    rw [hb]
    obtain ⟨printed, hr⟩ := run_record st verbose p.text (.skipped [.ofBuild (.definition e)]) g
    dsimp only
    rw [hr]
    exact ⟨rfl, hfounded, rfl⟩
  | ok b =>
    obtain ⟨r, hr⟩ := settled_execute hanswer (b := b) (F := F)
    refine ⟨r.map fun o => ⟨b.name, o⟩, fun verbose g hfounded hsteady => ?_⟩
    obtain ⟨printed, hrun⟩ := benchmark_of_ok verbose hb g
    obtain ⟨hends, hfounded', htally⟩ :=
      hr { g with session.printed := printed } hfounded fun files h => hsteady b files (.here hb h)
    rcases hx : (execute st b).run.run { g with session.printed := printed } with ⟨f | o, g'⟩ <;>
      rw [hx] at hrun hends hfounded' htally <;> subst hends <;> dsimp only at hrun hfounded' htally
    · dsimp only
      rw [hrun]
      exact ⟨rfl, hfounded', htally⟩
    · obtain ⟨printed', hrun⟩ := hrun
      dsimp only
      rw [hrun]
      exact ⟨rfl, hfounded', by rw [htally]; rfl⟩

def upTo (r : Path → Except Fault Element) : List Path → List Element × Except Fault Unit
  | [] => ([], .ok ())
  | p :: paths =>
    match r p with
    | .error f => ([], .error f)
    | .ok e => (e :: (upTo r paths).1, (upTo r paths).2)

theorem upTo_cons_of_error {p : Path} {f : Fault} (h : r p = .error f) (paths : List Path) :
    upTo r (p :: paths) = ([], .error f) := by
  rw [upTo, h]

theorem upTo_cons_of_ok {p : Path} {e : Element} (h : r p = .ok e) (paths : List Path) :
    upTo r (p :: paths) = (e :: (upTo r paths).1, (upTo r paths).2) := by
  rw [upTo, h]

theorem upTo_cases (r : Path → Except Fault Element) (paths : List Path) :
    ∃ done rest, paths = done ++ rest ∧ List.Forall₂ (fun p e => r p = .ok e) done (upTo r paths).1 ∧
      ((upTo r paths).2 = .ok () ∧ rest = [] ∨
        ∃ p f, rest.head? = some p ∧ r p = .error f ∧ (upTo r paths).2 = .error f) := by
  induction paths with
  | nil => exact ⟨[], [], rfl, .nil, .inl ⟨rfl, rfl⟩⟩
  | cons p paths ih =>
    cases h : r p with
    | error f =>
      rw [upTo_cons_of_error h]
      exact ⟨[], p :: paths, rfl, .nil, .inr ⟨p, f, rfl, h, rfl⟩⟩
    | ok e =>
      obtain ⟨done, rest, hpaths, hdone, hends⟩ := ih
      rw [upTo_cons_of_ok h]
      exact ⟨p :: done, rest, congrArg (p :: ·) hpaths, hdone.cons h, hends⟩

theorem benchmarks_come (hr : ∀ p, Comes st F answer p (r p)) {paths : List Path} {g : Progress σ}
    (hfounded : g.session.Founded st answer) (hsteady : Steady st F verbose paths g) :
    let run := (benchmarks st verbose paths).run.run g
    run.1 = (upTo r paths).2 ∧ run.2.tally.elements = g.tally.elements ++ (upTo r paths).1 := by
  dsimp only
  induction paths generalizing g with
  | nil => exact ⟨rfl, (List.append_nil _).symm⟩
  | cons p paths ih =>
    have hhead : Steady st F verbose [p] g := by
      intro b files h
      cases h with
      | here hb h => exact hsteady b files (.here hb h)
      | later _ h => cases h
    have hone := hr p verbose g hfounded hhead
    unfold benchmarks
    rw [run_bind]
    rcases hrun : (benchmark st verbose p).run.run g with ⟨f | ⟨⟩, g'⟩ <;> rw [hrun] at hone <;>
      obtain ⟨hends, hfounded', htally⟩ := hone <;> cases hp : r p <;> rw [hp] at hends htally <;> cases hends
    · rw [upTo_cons_of_error hp]
      exact ⟨rfl, by rw [htally]; exact (List.append_nil _).symm⟩
    · rename_i e
      obtain ⟨hends, helements⟩ := ih hfounded' fun b files h => hsteady b files (.later hrun h)
      rw [upTo_cons_of_ok hp]
      refine ⟨hends, ?_⟩
      rw [helements, htally, tallied, Tally.elements_push, List.append_assoc, List.singleton_append]

end

/-! ## Files that are kept -/

section
variable {σ α : Type} {st : Setting σ} {F : FileSystem} {verbose : Bool} {I : FileSystem → Prop}
  (htools : st.toolbox.Keeps I)
include htools

theorem Alike.keeps {v : Setting.Variant σ} {b : Benchmark} (hbuild : Build.Keeps st I b) {m m' : Running σ α}
    (h : Alike st v b m m') {g : Progress σ} (hg : I g.session.files) : I (m.run.run g).2.session.files := by
  induction h generalizing g with
  | pure x => exact hg
  | @bind α β m m' k k' hm hk ihm ihk =>
    have hfiles := ihm hg
    rw [run_bind]
    rcases hr : m.run.run g with ⟨f | x, g'⟩ <;> rw [hr] at hfiles
    · exact hfiles
    · exact ihk x hfiles
  | attempt h hfailure hvalue ihfailure ihvalue =>
    have hfiles := h.keeps htools hbuild hg
    rw [run_bind, run_attempt]
    rcases hr : Act.run _ g.session with ⟨f | e | x, s⟩ <;> rw [hr] at hfiles
    · exact hfiles
    · exact ihfailure e hfiles
    · exact ihvalue x (h.value (congrArg Prod.fst hr)) hfiles
  | take p output =>
    rw [run_take]
    cases Sample.parseBatch output <;> exact hg

theorem benchmark_keeps {p : Path} (hbuild : ∀ b, Benchmark.ofPath st.config p = .ok b → Build.Keeps st I b)
    {g : Progress σ} (hg : I g.session.files) : I ((benchmark st verbose p).run.run g).2.session.files := by
  cases hb : Benchmark.ofPath st.config p with
  | error e =>
    unfold benchmark
    rw [hb]
    obtain ⟨printed, hr⟩ := run_record st verbose p.text (.skipped [.ofBuild (.definition e)]) g
    dsimp only
    rw [hr]
    exact hg
  | ok b =>
    obtain ⟨printed, hrun⟩ := benchmark_of_ok verbose hb g
    have halike : Alike st ⟨st.quiet, st.toolbox⟩ b _ _ := execute_alike (Benchmark.parts_ne_nil hb)
    have hfiles := halike.keeps htools (hbuild b hb) (g := { g with session.printed := printed }) hg
    rcases hx : (execute st b).run.run { g with session.printed := printed } with ⟨f | o, g'⟩ <;>
      rw [hx] at hrun hfiles
    · dsimp only at hrun
      rw [hrun]
      exact hfiles
    · obtain ⟨printed', hrun⟩ := hrun
      rw [hrun]
      exact hfiles

/-- If commands and the making of directories keep a property of the files that decides the facts,
these are steady. -/
theorem steady_of_kept {paths : List Path}
    (hbuild : ∀ p ∈ paths, ∀ b, Benchmark.ofPath st.config p = .ok b → Build.Keeps st I b)
    (hfacts : ∀ b files, I files → Build.SameFacts st b files F) {g : Progress σ} (hg : I g.session.files) :
    Steady st F verbose paths g := by
  intro b files h
  refine hfacts b files ?_
  induction h with
  | @here p paths g b hb printed files h =>
    exact h.keeps (s := { g.session with printed }) htools (hbuild p (List.mem_cons_self ..) b hb) hg
  | @later p paths g g' b files hp h ih =>
    have hfiles : I ((benchmark st verbose p).run.run g).2.session.files :=
      benchmark_keeps htools (hbuild p (List.mem_cons_self ..)) hg
    rw [hp] at hfiles
    exact ih (fun q hq => hbuild q (List.mem_cons_of_mem p hq)) hfiles

theorem benchmarks_keep {paths : List Path} (hbuild : ∀ b, Build.Keeps st I b) {g : Progress σ}
    (hg : I g.session.files) :
    I ((benchmarks st verbose paths).run.run g).2.session.files := by
  induction paths generalizing g with
  | nil => exact hg
  | cons p paths ih =>
    have hfiles : I ((benchmark st verbose p).run.run g).2.session.files :=
      benchmark_keeps htools (fun b _ => hbuild b) hg
    rw [benchmarks, run_bind]
    rcases hr : (benchmark st verbose p).run.run g with ⟨f | ⟨⟩, g'⟩ <;> rw [hr] at hfiles
    · exact hfiles
    · exact ih hfiles

/-- What commands and the making of directories keep, a whole run keeps. -/
theorem all_keeps (prefixes : List Text) (hbuild : ∀ b, Build.Keeps st I b) {g : Progress σ}
    (hg : I g.session.files) :
    I ((all st verbose prefixes).run.run g).2.session.files := by
  obtain ⟨paths, line, -, hall⟩ := run_all st verbose prefixes g
  obtain ⟨printed, hprint⟩ := run_print st line g
  have hfiles :
      I ((benchmarks st verbose paths).run.run { g with session.printed := printed }).2.session.files :=
    benchmarks_keep htools hbuild hg
  rw [hall, run_bind, hprint]
  dsimp only
  rw [run_bind]
  rcases hr : (benchmarks st verbose paths).run.run { g with session.printed := printed }
    with ⟨f | ⟨⟩, g'⟩ <;>
    rw [hr] at hfiles
  · exact hfiles
  · exact hfiles

end

/-! ## Runs of their own -/

section
variable {σ : Type} {st : Setting σ} {F : FileSystem} {verbose : Bool}
    {answer : Command → Except Fault Answer}
  {r : Path → Except Fault Element}

def fresh (files : FileSystem) (tools : σ) : Progress σ := { session := { files, tools } }

theorem fresh_come (hr : ∀ p, Comes st F answer p (r p)) {paths : List Path} {files : FileSystem} {tools : σ}
    (hsteady : Steady st F verbose paths (fresh files tools)) :
    let run := (benchmarks st verbose paths).run.run (fresh files tools)
    run.1 = (upTo r paths).2 ∧ run.2.tally.elements = (upTo r paths).1 :=
  benchmarks_come hr (fun hready => nomatch hready) hsteady

variable (st F) in
/-- A run over one path alone, with files and tools in any state in which the facts are those of `F`. -/
def Alone (p : Path) (run : Except Fault Unit × Progress σ) : Prop :=
  ∃ verbose files tools, run = (benchmarks st verbose [p]).run.run (fresh files tools) ∧
    Steady st F verbose [p] (fresh files tools)

end

/-- **Benchmarks on their own.** Let the tools answer each command in one way, and let what the
benchmarks look up in the files be at all times as at the start of the run. Then the run comes to
one element for each path, up to the first fault, and the path alone comes to the same element, or
to the same fault, in each run of its own under the same facts. -/
theorem element_alone {σ : Type} (st : Setting σ) (answer : Command → Except Fault Answer)
    (hanswer : st.toolbox.Answers answer) (verbose : Bool) (paths : List Path) (files : FileSystem)
    (tools : σ) (hsteady : Steady st files verbose paths (fresh files tools)) :
    let run := (benchmarks st verbose paths).run.run (fresh files tools)
    ∃ done rest, paths = done ++ rest ∧ (run.1 = .ok () → rest = []) ∧
      (∀ f, run.1 = .error f → ∃ p, rest.head? = some p ∧
        ∀ alone, Alone st files p alone → alone.1 = .error f) ∧
      List.Forall₂ (fun p e => ∀ alone, Alone st files p alone →
        alone.1 = .ok () ∧ alone.2.tally.elements = [e])
        done run.2.tally.elements := by
  choose r hr using exists_comes (F := files) hanswer
  have halone : ∀ p alone, Alone st files p alone →
      alone.1 = (upTo r [p]).2 ∧ alone.2.tally.elements = (upTo r [p]).1 := by
    rintro p _ ⟨verbose', files', tools', rfl, hsteady'⟩
    exact fresh_come hr hsteady'
  obtain ⟨hends, helements⟩ := fresh_come hr hsteady
  obtain ⟨done, rest, hpaths, hdone, hcases⟩ := upTo_cases r paths
  dsimp only
  rw [hends, helements]
  refine ⟨done, rest, hpaths, ?_, ?_, hdone.imp fun p e hp alone ha => ?_⟩
  · rcases hcases with ⟨-, hrest⟩ | ⟨p, f, -, -, hf⟩
    · exact fun _ => hrest
    · exact fun hok => nomatch hf.symm.trans hok
  · intro f hf
    rcases hcases with ⟨hok, -⟩ | ⟨p, f', hhead, hp, hf'⟩
    · exact nomatch hok.symm.trans hf
    · cases hf'.symm.trans hf
      refine ⟨p, hhead, fun alone ha => ?_⟩
      rw [(halone p alone ha).1, upTo_cons_of_error hp]
  · have h := halone p alone ha
    rw [upTo_cons_of_ok hp] at h
    exact h

def furnished : FileSystem :=
  .ofNodes ["w"] [(["w"], .directory), (["w", "lindfs"], .directory), (["w", "tests"], .directory),
    (["w", "tests", "benchmarks"], .directory), (["w", "tests", "lind-wasm-example-grates"], .directory),
    (["w", "tests", "lind-wasm-example-grates", "x_grate"], .directory)]

/-- The last of them has its sparse selection set up by the one before. -/
def neighbours : List Path :=
  ["/w/tests/benchmarks/a.c", "/w/tests/benchmarks/x_grate.b.grate", "/w/tests/benchmarks/x_grate.grate"]

theorem ofPath_neighbours : neighbours.map (Benchmark.ofPath Build.inWork) =
    [.ok ⟨"a", "/w/tests/benchmarks/a.c", .simple, [.source "a"]⟩,
     .ok ⟨"x_grate.b", "/w/tests/benchmarks/x_grate.b.grate", .composite, [.shim "x_grate", .source "b"]⟩,
     .ok ⟨"x_grate", "/w/tests/benchmarks/x_grate.grate", .composite, [.shim "x_grate"]⟩] := rfl

theorem makeDirectories_furnished {p : Path} (hp : p ∈ neighbours) {b : Benchmark}
    (hb : Benchmark.ofPath Build.inWork p = .ok b) {d : Path}
    (hd : Build.Prepares (Setting.obliging Build.inWork) b d) :
    furnished.makeDirectories d = (.ok (), furnished) := by
  have hmem := List.mem_map_of_mem (f := Benchmark.ofPath Build.inWork) hp
  rw [hb, ofPath_neighbours] at hmem
  cases hd with
  | @program hk program _ h hparent =>
    have hprogram : Build.program? (Setting.obliging Build.inWork)
      ⟨"a", "/w/tests/benchmarks/a.c", .simple, [.source "a"]⟩ = some "/w/lindfs/a" := rfl
    have hlindfs : Path.parent? "/w/lindfs/a" = some "/w/lindfs" := rfl
    rcases List.mem_cons.1 hmem with hb | hmem
    · cases hb
      rw [hprogram] at h
      cases h
      rw [hlindfs] at hparent
      cases hparent
      cbv
    · rcases List.mem_pair.1 hmem with hb | hb <;> cases hb <;> cases hk
  | copy _ hparent =>
    have htests : Path.parent? (Setting.obliging Build.inWork).config.repository.workingCopy =
        some "/w/tests" := rfl
    rw [htests] at hparent
    cases hparent
    cbv

theorem steady_furnished {paths : List Path} (hpaths : paths ⊆ neighbours) (verbose : Bool) :
    Steady (Setting.obliging Build.inWork) furnished verbose paths (fresh furnished ()) := by
  refine steady_of_kept (I := fun files => files = furnished) ?_ ?_ ?_ rfl
  · rintro c _ tools rfl
    rfl
  · rintro p hp b hb d _ hd rfl
    rw [makeDirectories_furnished (hpaths hp) hb hd]
  · rintro b _ rfl
    exact ⟨rfl, fun _ _ => rfl, fun _ _ => rfl⟩

theorem element_alone_neighbours :
    let st := Setting.obliging Build.inWork
    let run := (benchmarks st false neighbours).run.run (fresh furnished ())
    st.toolbox.Answers (fun _ => .ok (.ok {})) ∧ Steady st furnished false neighbours (fresh furnished ()) ∧
      (∀ p ∈ neighbours, Alone st furnished p ((benchmarks st true [p]).run.run (fresh furnished ()))) ∧
      ∃ done rest, neighbours = done ++ rest ∧ (run.1 = .ok () → rest = []) ∧
        (∀ f, run.1 = .error f → ∃ p, rest.head? = some p ∧
          ∀ alone, Alone st furnished p alone → alone.1 = .error f) ∧
        List.Forall₂ (fun p e => ∀ alone, Alone st furnished p alone →
          alone.1 = .ok () ∧ alone.2.tally.elements = [e])
          done run.2.tally.elements := by
  have hanswer : (Setting.obliging Build.inWork).toolbox.Answers fun _ => .ok (.ok {}) := fun _ _ _ => rfl
  have hsteady := steady_furnished (List.Subset.refl neighbours) false
  refine ⟨hanswer, hsteady, fun p hp => ⟨true, furnished, (), rfl, steady_furnished ?_ true⟩,
    element_alone (Setting.obliging Build.inWork) _ hanswer false neighbours furnished () hsteady⟩
  exact List.cons_subset.2 ⟨hp, List.nil_subset _⟩

end TriBench.Run
