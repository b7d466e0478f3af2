import TriBench.Proofs.Build.Variants
import TriBench.Proofs.Run.Alike

/-!
# Runs in a variant

A run does the same in a variant of its setting that answers the commands of its benchmarks alike,
and a quiet run prints nothing. Main statement: `echoing_all`.
-/

namespace TriBench

section
variable {σ : Type}

structure Progress.Echoes (same : Prop) (g g' : Progress σ) : Prop where
  session : Session.Echoes same g.session g'.session
  results : g'.results = g.results
  tally : g'.tally = g.tally

theorem Progress.Echoes.eq {g g' : Progress σ} (h : Echoes True g g') : g' = g := by
  obtain ⟨⟨files, tools, calls, printed, ready⟩, results, tally⟩ := g'
  obtain ⟨⟨printed', hs, hprinted⟩, hresults, htally⟩ := h
  rw [hprinted trivial] at hs
  dsimp only at hs hresults htally
  rw [hs, hresults, htally]

theorem Progress.Echoes.refl (same : Prop) (g : Progress σ) : Echoes same g g := ⟨.refl g.session, rfl, rfl⟩

namespace Run

/-- From echoes the steps end in the same way and leave echoes, and the second one prints nothing if
it is quiet. -/
def Echoing {α : Type} (same : Prop) (v : Setting.Variant σ) (m m' : Running σ α) : Prop :=
  ∀ g g', Progress.Echoes same g g' →
    (m'.run.run g').1 = (m.run.run g).1 ∧ Progress.Echoes same (m.run.run g).2 (m'.run.run g').2 ∧
      (v.quiet = true → (m'.run.run g').2.session.printed = g'.session.printed)

variable {ε α β : Type} {st : Setting σ} {v : Setting.Variant σ} {b : Benchmark} {same : Prop}
    {verbose verbose' : Bool}

/-! ## Steps -/

theorem echoing_pure (x : α) : Echoing same v (pure x : Running σ α) (pure x) :=
  fun _ _ h => ⟨rfl, h, fun _ => rfl⟩

theorem echoing_bind_of {m m' : Running σ α} {k k' : α → Running σ β} (hm : Echoing same v m m')
    (hk : ∀ g x t, m.run.run g = (.ok x, t) → Echoing same v (k x) (k' x)) :
    Echoing same v (m >>= k) (m' >>= k') := by
  intro g g' h
  obtain ⟨hends, hafter, hsilent⟩ := hm g g' h
  rw [run_bind, run_bind]
  rcases hr : m.run.run g with ⟨r, t⟩
  rcases hr' : m'.run.run g' with ⟨r', t'⟩
  rw [hr, hr'] at hends hafter
  rw [hr'] at hsilent
  dsimp only at hends hafter hsilent
  subst hends
  cases r' with
  | error f => exact ⟨rfl, hafter, hsilent⟩
  | ok x =>
    obtain ⟨hends, hafter, hsilent'⟩ := hk g x t hr t t' hafter
    exact ⟨hends, hafter, fun hquiet => (hsilent' hquiet).trans (hsilent hquiet)⟩

theorem echoing_bind {m m' : Running σ α} {k k' : α → Running σ β} (hm : Echoing same v m m')
    (hk : ∀ x, Echoing same v (k x) (k' x)) :
    Echoing same v (m >>= k) (m' >>= k') :=
  echoing_bind_of hm fun _ x _ _ => hk x

theorem echoing_print (hsame : same → v.quiet = st.quiet) (line : Text) :
    Echoing same v (print st line) (print (st.vary v) line) := by
  intro g g' h
  rw [run_print_eq, run_print_eq]
  exact ⟨rfl, ⟨h.session.append fun hs => ⟨hsame hs, rfl⟩, h.results, h.tally⟩,
    fun hquiet => congrArg Session.printed (if_pos hquiet)⟩

theorem echoing_record (hsame : same → v.quiet = st.quiet ∧ verbose' = verbose) (name : Text) (o : Outcome) :
    Echoing same v (record st verbose name o) (record (st.vary v) verbose' name o) := by
  intro g g' h
  rw [run_record_eq, run_record_eq]
  refine ⟨rfl, ⟨h.session.append fun hs => ⟨(hsame hs).1, ?_⟩, h.results, congrArg (Tally.push · _) h.tally⟩,
    fun hquiet => congrArg Session.printed (if_pos hquiet)⟩
  rw [(hsame hs).2]
  rfl

theorem echoing_attempt_bind (hv : v.Agrees st b) (hsame : same → v.quiet = st.quiet) {wrap : ε → Failure}
    {Q : α → Prop} {a a' : Act σ ε α} (h : Act.Alike st v b wrap Q a a') {k k' : Except ε α → Running σ β}
    (hfailure : ∀ e, Echoing same v (k (.error e)) (k' (.error e)))
    (hvalue : ∀ x, Q x → Echoing same v (k (.ok x)) (k' (.ok x))) :
    Echoing same v (attempt a >>= k) (attempt a' >>= k') := by
  have hattempt : Echoing same v (attempt a) (attempt a') := by
    intro g g' hg
    obtain ⟨hends, hsession, hsilent⟩ := h.echo hv hsame hg.session
    rw [run_attempt, run_attempt]
    exact ⟨hends, ⟨hsession, hg.results, hg.tally⟩, hsilent⟩
  refine echoing_bind_of hattempt fun g r t hr => ?_
  cases r with
  | error e => exact hfailure e
  | ok x =>
    rw [run_attempt] at hr
    exact hvalue x (h.value (s := g.session) (congrArg Prod.fst hr))

theorem Alike.echoing (hv : v.Agrees st b) (hsame : same → v.quiet = st.quiet) {m m' : Running σ α}
    (h : Alike st v b m m') :
    Echoing same v m m' := by
  induction h with
  | pure x => exact echoing_pure x
  | bind hm hk ihm ihk => exact echoing_bind ihm ihk
  | attempt h hfailure hvalue ihfailure ihvalue => exact echoing_attempt_bind hv hsame h ihfailure ihvalue
  | take p output =>
    intro g g' hg
    rw [run_take, run_take, hg.results]
    cases Sample.parseBatch output with
    | error e => exact ⟨rfl, hg, fun _ => rfl⟩
    | ok samples => exact ⟨rfl, ⟨hg.session, rfl, hg.tally⟩, fun _ => rfl⟩

/-! ## Benchmarks -/

def AgreesOn (st : Setting σ) (v : Setting.Variant σ) (paths : List Path) : Prop :=
  ∀ p ∈ paths, ∀ b, Benchmark.ofPath st.config p = .ok b → v.Agrees st b

theorem echoing_benchmarks (hsame : same → v.quiet = st.quiet ∧ verbose' = verbose) {paths : List Path}
    (hv : AgreesOn st v paths) :
    Echoing same v (benchmarks st verbose paths) (benchmarks (st.vary v) verbose' paths) := by
  induction paths with
  | nil => exact echoing_pure _
  | cons p paths ih =>
    obtain ⟨hp, hpaths⟩ := List.forall_mem_cons.1 hv
    refine echoing_bind ?_ fun _ => ih hpaths
    unfold benchmark
    dsimp only [Setting.vary]
    cases hb : Benchmark.ofPath st.config p with
    | error e => exact echoing_record hsame _ _
    | ok b =>
      refine echoing_bind (echoing_print (fun h => (hsame h).1) _) fun _ => ?_
      have hexecute := (execute_alike (Benchmark.parts_ne_nil hb)).echoing (hp b hb) fun h => (hsame h).1
      exact echoing_bind hexecute fun o => echoing_record hsame _ _

variable (st v same verbose verbose') in
/-- Under the same files the same benchmarks are found. -/
theorem echoing_all (hsame : same → v.quiet = st.quiet ∧ verbose' = verbose) (prefixes : List Text)
    {g g' : Progress σ} (hg : Progress.Echoes same g g')
    (hv : ∀ paths, Discovery.discover g.session.files st.config prefixes = .ok paths → AgreesOn st v paths) :
    let run := (all st verbose prefixes).run.run g
    let run' := (all (st.vary v) verbose' prefixes).run.run g'
    run'.1 = run.1 ∧ Progress.Echoes same run.2 run'.2 ∧
      (v.quiet = true → run'.2.session.printed = g'.session.printed) := by
  have hfiles : g'.session.files = g.session.files := by
    obtain ⟨printed, hs, -⟩ := hg.session
    rw [hs]
  unfold all
  dsimp only
  rw [run_bind, run_bind, run_get, run_get]
  dsimp only [Setting.vary]
  rw [hfiles]
  cases hpaths : Discovery.discover g.session.files st.config prefixes with
  | error e => exact ⟨rfl, hg, fun _ => rfl⟩
  | ok paths =>
    refine (echoing_bind (echoing_print (fun h => (hsame h).1) _) fun _ => ?_) g g' hg
    exact echoing_bind (echoing_benchmarks hsame (hv paths hpaths)) fun _ => echoing_pure _

end Run

end

end TriBench
