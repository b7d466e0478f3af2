import TriBench.Session

/-!
# Rehearsed tools

A run can be rehearsed with rules in place of tools: a command is answered by the first rule that
fits its line and is not used up, and without one it succeeds with no output.
-/

namespace TriBench

inductive Reply
  | output (o : ToolOutput)
  | notFound
  | spawning (cause : IoError)
  | waiting (cause : IoError)
  /-- After the time limit of the command. -/
  | timeout
  | exit (code : Option Int) (o : ToolOutput)
  deriving DecidableEq

def Reply.answer (c : Command) : Reply → Answer
  | output o => .ok o
  | notFound => .error (.notFound c.program)
  | spawning cause => .error (.spawning c.program cause)
  | waiting cause => .error (.waiting c.program cause)
  | timeout => .error (.timeout c.program c.timeout)
  | exit code o => .error (.exit c.program code o)

structure Rule where
  /-- The rule fits the commands whose line holds this text. -/
  fragment : Text
  /-- How often the rule may still be used. -/
  remaining : Option Nat
  /-- Directories that are created before the reply. -/
  directories : List Path
  reply : Reply

namespace Rules

def fits (line : Text) (r : Rule) : Bool := r.remaining ≠ some 0 && Text.contains r.fragment line

def use? (line : Text) : List Rule → Option (Rule × List Rule)
  | [] => none
  | r :: rs =>
    if fits line r then some (r, { r with remaining := r.remaining.map (· - 1) } :: rs)
    else (use? line rs).map fun (found, rest) => (found, r :: rest)

/-- Answers commands by rules, which see their lines as `shown` makes them. -/
def toolbox (shown : Text → Text) : Toolbox (List Rule) where
  invoke c files rules :=
    match use? (shown c.line) rules with
    | none => (.ok (.ok {}), files, rules)
    | some (r, rules) =>
      (.ok (r.reply.answer c), r.directories.foldl (fun fs d => (fs.makeDirectories d).2) files,
        rules)

end Rules

end TriBench
