import TriBench.Shell.Word

/-!
# Statements of the shell
-/

namespace TriBench.Shell

inductive Redirection.Kind
  | input
  | output
  | append
  /-- The target is what is read. -/
  | document
  /-- The target names a descriptor, or is a dash. -/
  | duplicate
  deriving DecidableEq, Repr

structure Redirection where
  descriptor : Nat
  kind : Redirection.Kind
  target : Word
  deriving Repr

mutual

inductive Statement
  | nothing
  | simple (line : Nat) (assignments : List (Text × Word)) (words : List Word)
      (redirections : List Redirection)
  /-- A compound command with redirections. -/
  | redirected (line : Nat) (body : Statement) (redirections : List Redirection)
  | pipe (left right : Statement)
  | negation (c : Statement)
  | conjunction (left right : Statement)
  | disjunction (left right : Statement)
  | sequence (first rest : Statement)
  | background (c : Statement)
  | subshell (body : Statement)
  | conditional (condition consequence alternative : Statement)
  /-- Repeats the body as long as the condition succeeds, or as long as it fails. -/
  | loop (whileSuccess : Bool) (condition body : Statement)
  /-- Without words, the loop goes over the arguments. -/
  | each (name : Text) (words : Option (List Word)) (body : Statement)
  | choice (subject : Word) (clauses : Clauses)
  | definition (name : Text) (body : Statement)

inductive Clauses
  | none
  | clause (patterns : List Word) (body : Statement) (rest : Clauses)

end

end TriBench.Shell
