import TriBench.Path.Basic

/-!
# Commands

What is run, with which arguments, where, with which privileges, and for how long at most.
-/

namespace TriBench

structure Command where
  program : Text
  arguments : List Text := []
  /-- The directory to run in; without one it is the directory of the caller. -/
  directory : Option Path := none
  privileged : Bool := false
  /-- The time limit in milliseconds. -/
  timeout : Nat
  deriving DecidableEq

namespace Command

def arg (c : Command) (a : Text) : Command := { c with arguments := c.arguments ++ [a] }

def args (c : Command) (as : List Text) : Command := { c with arguments := c.arguments ++ as }

def inDirectory (c : Command) (p : Path) : Command := { c with directory := some p }

def withPrivileges (c : Command) : Command := { c with privileged := true }

def line (c : Command) : Text := Text.joinWith [' '] (c.program :: c.arguments)

end Command

end TriBench
