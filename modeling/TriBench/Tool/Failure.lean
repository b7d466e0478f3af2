import TriBench.Decimal.Shortest
import TriBench.FileSystem.Basic
import TriBench.Text.Blank

/-!
# Failures of commands

A command fails if its program is not found, cannot be started or waited for, runs too long, or ends
without success. Only in the last case there is output to show.
-/

namespace TriBench

structure ToolOutput where
  stdout : Bytes := []
  stderr : Bytes := []
  deriving DecidableEq

inductive ToolFailure
  | notFound (program : Text)
  | spawning (program : Text) (cause : IoError)
  | waiting (program : Text) (cause : IoError)
  | timeout (program : Text) (millis : Nat)
  /-- The exit code is missing if a signal ended the program. -/
  | exit (program : Text) (code : Option Int) (output : ToolOutput)
  deriving DecidableEq

namespace ToolFailure

def message : ToolFailure → Text
  | notFound program =>
    "The `" ++ program ++ "` executable not found in $\x7bPATH\x7d: cannot find binary path"
  | spawning program cause => '`' :: program ++ "` subprocess spawning error: " ++ cause.message
  | waiting program cause => '`' :: program ++ "` subprocess waiting error: " ++ cause.message
  | timeout program millis =>
    '`' :: program ++ "` timed out after " ++ Decimal.seconds millis ++ ['s']
  | exit program (some code) _ => '`' :: program ++ "` exited with code " ++ Text.ofInt code
  | exit program none _ => '`' :: program ++ "` exited with a signal"

/-- The output of a program that failed: the standard error and then the standard output, each
without blanks at its end, if anything is left of them. -/
def diagnostics : ToolFailure → Option Text
  | exit _ _ output =>
    match [output.stderr, output.stdout].map (Text.trimEnd ∘ Utf8.decode) |>.filter (· ≠ []) with
    | [] => none
    | streams => some (Text.joinWith ['\n'] streams)
  | _ => none

end ToolFailure

end TriBench
