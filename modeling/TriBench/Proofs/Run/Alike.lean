import TriBench.Proofs.Build.Alike
import TriBench.Proofs.Run.Course

/-!
# How a benchmark is put together

The build of a benchmark and its measurements, put together from steps of the session and from looks
at what was written. `Run.Alike` says so of the benchmark in a setting and in a variant of it at
once. Main statement: `execute_alike`.
-/

namespace TriBench.Run

section
variable {σ : Type}

def take (p : Platform) (output : Text) : Running σ (Platform × Except Failure Unit) := do
  let g ← get
  match g.results.absorb p output with
  | .error e => pure (p, .error (.malformedOutput p e))
  | .ok (results, _) =>
    set { g with results }
    pure (p, .ok ())

theorem run_take (p : Platform) (output : Text) (g : Progress σ) : (take p output).run.run g =
    match Sample.parseBatch output with
    | .error e => (.ok (p, .error (.malformedOutput p e)), g)
    | .ok samples =>
      (.ok (p, .ok ()), { g with results := samples.foldl (Results.putSample p) g.results }) := by
  unfold take
  rw [run_bind, run_get]
  cases h : Sample.parseBatch output with
  | error e =>
    dsimp only
    rw [Results.absorb_of_error _ _ h]
    rfl
  | ok samples =>
    dsimp only
    rw [Results.absorb_of_ok _ _ h]
    rfl

inductive Alike (st : Setting σ) (v : Setting.Variant σ) (b : Benchmark) :
    {α : Type} → Running σ α → Running σ α → Prop
  | pure {α : Type} (x : α) : Alike st v b (pure x) (pure x)
  | bind {α β : Type} {m m' : Running σ β} {k k' : β → Running σ α} (hm : Alike st v b m m')
    (hk : ∀ x, Alike st v b (k x) (k' x)) : Alike st v b (m >>= k) (m' >>= k')
  | attempt {ε α β : Type} {wrap : ε → Failure} {Q : β → Prop} {a a' : Act σ ε β}
    (h : Act.Alike st v b wrap Q a a')
    {k k' : Except ε β → Running σ α} (hfailure : ∀ e, Alike st v b (k (.error e)) (k' (.error e)))
    (hvalue : ∀ x, Q x → Alike st v b (k (.ok x)) (k' (.ok x))) :
    Alike st v b (attempt a >>= k) (attempt a' >>= k')
  | take (p : Platform) (output : Text) : Alike st v b (take p output) (take p output)

variable {st : Setting σ} {v : Setting.Variant σ} {b : Benchmark}

theorem measure_alike (p : Platform) {Q : Text → Prop} {execution execution' : Act σ RunError Text}
    (h : Act.Alike st v b Failure.execution Q execution execution') :
    Alike st v b (measure p execution) (measure p execution') :=
  .attempt h (fun _ => .pure _) fun output _ => .take p output

theorem execute_alike (hparts : b.parts ≠ []) : Alike st v b (execute st b) (execute (st.vary v) b) := by
  unfold execute
  cases b.kind with
  | simple =>
    refine .attempt Build.both_alike (fun _ => .pure _) fun built hbuilt => ?_
    obtain ⟨hk, hprogram, hmodule⟩ := hbuilt
    refine (measure_alike _ (Execution.sandboxed_alike (Build.serves_boot _ hmodule))).bind fun lind => ?_
    exact (measure_alike _ (Execution.native_alike (.execution hk hprogram))).bind fun linux => .pure _
  | composite =>
    refine .attempt (Build.parts_alike (List.Subset.refl b.parts)) (fun _ => .pure _) fun artifacts h => ?_
    exact (measure_alike _ (Execution.sandboxed_alike (Build.serves_boot_parts _ hparts h))).bind fun grate =>
      .pure _

end

end TriBench.Run
