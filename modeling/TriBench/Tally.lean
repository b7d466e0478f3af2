import TriBench.Outcome

/-!
# The tally of a run

The elements of a run in order, counted by outcome, and their failures, counted by kind. The box
shows all counters.
-/

namespace TriBench

structure Tally where
  elements : List Element := []
  measured : Nat := 0
  partly : Nat := 0
  skipped : Nat := 0
  resolution : Nat := 0
  compilation : Nat := 0
  execution : Nat := 0
  malformedOutput : Nat := 0

namespace Tally

def failures (t : Tally) : Failure.Kind → Nat
  | .resolution => t.resolution
  | .compilation => t.compilation
  | .execution => t.execution
  | .malformedOutput => t.malformedOutput

def countFailure (t : Tally) : Failure.Kind → Tally
  | .resolution => { t with resolution := t.resolution + 1 }
  | .compilation => { t with compilation := t.compilation + 1 }
  | .execution => { t with execution := t.execution + 1 }
  | .malformedOutput => { t with malformedOutput := t.malformedOutput + 1 }

def countOutcome (t : Tally) : Outcome → Tally
  | .measured _ => { t with measured := t.measured + 1 }
  | .partly .. => { t with partly := t.partly + 1 }
  | .skipped _ => { t with skipped := t.skipped + 1 }

def push (t : Tally) (e : Element) : Tally :=
  let t := e.outcome.failures.foldl (fun t f => t.countFailure f.kind) (t.countOutcome e.outcome)
  { t with elements := t.elements ++ [e] }

def cellWidth : Nat := 26

def topEdge : Text := "╔═══════════════════╡ BENCHMARK RUN ╞══════════════════════════╗\n"

def blankRow : Text := "║                                                              ║\n"

def bottomEdge : Text := "╚══════════════════════════════════════════════════════════════╝\n"

def row (colours : Bool) (label : Text) (colour : Colour) (count : Nat) : Text :=
  "║     " ++ Style.paintFilled colours (.plain colour) (Text.padRight cellWidth) label ++
    Style.paintFilled colours (.plain colour) (Text.padLeft cellWidth) (Text.ofNat count) ++
    "     ║\n"

def failureLabel : Failure.Kind → Text
  | .resolution => "RESOLUTION FAILURES"
  | .compilation => "COMPILATION FAILURES"
  | .execution => "EXECUTION FAILURES"
  | .malformedOutput => "MALFORMED OUTPUT FAILURES"

def box (colours : Bool) (t : Tally) : Text :=
  topEdge ++ blankRow ++
    row colours "MEASURED" .green t.measured ++
    row colours "PARTIAL" .yellow t.partly ++
    row colours "SKIPPED" .brightRed t.skipped ++
    blankRow ++
    Failure.Kind.all.flatMap (fun k => row colours (failureLabel k) .brightBlack (t.failures k)) ++
    bottomEdge

end Tally

end TriBench
