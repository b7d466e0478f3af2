import TriBench.Failure
import TriBench.Text.Lines
import TriBench.Text.Styled

/-!
# Outcomes

What a run has made of a benchmark: everything measured, some of it, or nothing. An element is the
outcome of one benchmark; its text has one line for the outcome and one for each failure and, when
asked for, the output of failed commands below them.
-/

namespace TriBench

inductive Outcome
  | measured (platforms : List Platform)
  | partly (platforms : List Platform) (failures : List Failure)
  | skipped (failures : List Failure)
  deriving DecidableEq

namespace Outcome

def classify (platforms : List Platform) (failures : List Failure) : Outcome :=
  if failures = [] then measured platforms
  else if platforms = [] then skipped failures
  else partly platforms failures

def platforms : Outcome → List Platform
  | measured ps => ps
  | partly ps _ => ps
  | skipped _ => []

def failures : Outcome → List Failure
  | measured _ => []
  | partly _ fs => fs
  | skipped fs => fs

def label : Outcome → Text × Colour
  | measured _ => ("MEASURED", .green)
  | partly .. => ("PARTIAL", .yellow)
  | skipped _ => ("SKIPPED", .brightRed)

end Outcome

def labelWidth : Nat := 12

structure Element where
  name : Text
  outcome : Outcome
  deriving DecidableEq

namespace Element

/-- The measured platforms in parentheses; nothing for a skipped benchmark. -/
def details (colours : Bool) : Outcome → Text
  | .skipped _ => []
  | o =>
    Style.paint colours (.plain .brightWhite)
      ('(' :: Text.joinWith ", " (o.platforms.map Platform.name) ++ [')'])

def failureText (colours verbose : Bool) (f : Failure) : Text :=
  '\n' :: Style.paintFilled colours (.plain .red) (Text.padLeft labelWidth) f.kind.name ++
    ' ' :: f.message ++
    if verbose then
      (Text.lines (f.diagnostics.getD [])).flatMap fun line =>
        '\n' :: Text.padLeft labelWidth [] ++
          ' ' :: Style.paint colours (.plain .brightBlack) line
    else []

/-- The text of the element. A benchmark that was measured in full is only worth one on request. -/
def text (colours verbose : Bool) (e : Element) : Option Text :=
  match e.outcome, verbose with
  | .measured _, false => none
  | o, _ =>
    some <|
      Style.paintFilled colours (.plain o.label.2) (Text.padLeft labelWidth) o.label.1 ++
        ' ' :: e.name ++ ' ' :: details colours o ++
        o.failures.flatMap (failureText colours verbose)

end Element

end TriBench
