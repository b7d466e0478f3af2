import TriBench.Text.Blank
import TriBench.Text.Lines
import TriBench.Text.Number

/-!
# Samples

A benchmark reports one sample a line: test, parameter, iteration count and average time, with a tab
between neighbours and blanks around them allowed. Lines of another shape are passed over; a line of
this shape whose parameter is no integer of 64 bits rejects the whole output, and so does the lack
of any sample.
-/

namespace TriBench

structure Sample where
  test : Text
  param : Int
  loops : Text
  average : Text
  deriving DecidableEq, Repr

/-- Why an output is rejected. Lines are counted from one. -/
inductive BatchError
  | param (line : Nat) (value : Text)
  | noRecords (lines : Nat)
  deriving DecidableEq, Repr

def BatchError.message : BatchError → Text
  | param line value =>
    "Line " ++ Text.ofNat line ++ ": parameter `" ++ value ++ "` is not an integer"
  | noRecords lines => "No measurement records among " ++ Text.ofNat lines ++ " output lines"

namespace Sample

def fields (line : Text) : List Text := (Text.splitOn '\t' line).map Text.trim

/-- The sample in a line, if it has the shape of one. The error is the parameter that is no
integer. -/
def ofLine? (line : Text) : Except Text (Option Sample) :=
  match fields line with
  | [test, param, loops, average] =>
    match Text.int64? param with
    | some n => .ok (some ⟨test, n, loops, average⟩)
    | none => .error param
  | _ => .ok none

def ofLines (line : Nat) : List Text → Except BatchError (List Sample)
  | [] => .ok []
  | l :: rest =>
    match ofLine? l with
    | .error value => .error (.param line value)
    | .ok none => ofLines (line + 1) rest
    | .ok (some s) => (ofLines (line + 1) rest).map (s :: ·)

def parseBatch (output : Text) : Except BatchError (List Sample) :=
  match ofLines 1 (Text.lines output) with
  | .ok [] => .error (.noRecords (Text.lines output).length)
  | r => r

end Sample

end TriBench
