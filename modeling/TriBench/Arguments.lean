import TriBench.Path.Basic
import TriBench.Text.Number

/-!
# Command line arguments

Options may stand anywhere between the prefixes. A long option has its value after an equals sign or
in the next argument; short ones may be joined behind one dash, and the value of the last then
follows at once, with or without an equals sign, or in the next argument. After two dashes everything
is a prefix. Nothing may be given twice.

A value in an argument of its own is only looked at when the next option or prefix, or the end, is
reached, so of two faults it is not always the first that is reported.
-/

namespace TriBench

structure Arguments where
  prefixes : List Text := []
  out : Option Path := none
  verbose : Bool := false
  quiet : Bool := false
  config : Option Path := none
  /-- In seconds. -/
  timeout : Option Nat := none
  deriving DecidableEq

inductive ArgumentError
  | unknownArgument
  /-- A path that is empty, or no value at all. -/
  | invalidValue
  /-- A value that is no number of 64 bits. -/
  | valueValidation
  /-- Something was given twice. -/
  | argumentConflict
  /-- A value for something that takes none. -/
  | tooManyValues
  | help
  deriving DecidableEq, Repr

inductive ValueOption
  | out
  | config
  | timeout
  deriving DecidableEq, Repr

inductive SwitchOption
  | verbose
  | quiet
  | help
  deriving DecidableEq, Repr

inductive CommandOption
  | value (o : ValueOption)
  | switch (o : SwitchOption)
  deriving DecidableEq, Repr

namespace CommandOption

def ofLong? (name : Text) : Option CommandOption :=
  if name = "out".toList then some (.value .out)
  else if name = "config".toList then some (.value .config)
  else if name = "timeout".toList then some (.value .timeout)
  else if name = "verbose".toList then some (.switch .verbose)
  else if name = "quiet".toList then some (.switch .quiet)
  else if name = "help".toList then some (.switch .help)
  else none

def ofShort? : Char → Option CommandOption
  | 'o' => some (.value .out)
  | 'v' => some (.switch .verbose)
  | 'q' => some (.switch .quiet)
  | 'h' => some (.switch .help)
  | _ => none

end CommandOption

namespace Arguments

def pathValue (v : Text) : Except ArgumentError Path :=
  if v = [] then .error .invalidValue else .ok ⟨v⟩

def numberValue (v : Text) : Except ArgumentError Nat :=
  match Text.uint64? v with
  | some n => .ok n
  | none => .error .valueValidation

def assign (a : Arguments) : ValueOption → Text → Except ArgumentError Arguments
  | .out, v =>
    if a.out.isSome then .error .argumentConflict
    else (pathValue v).map fun p => { a with out := some p }
  | .config, v =>
    if a.config.isSome then .error .argumentConflict
    else (pathValue v).map fun p => { a with config := some p }
  | .timeout, v =>
    if a.timeout.isSome then .error .argumentConflict
    else (numberValue v).map fun n => { a with timeout := some n }

def switchOn (a : Arguments) : SwitchOption → Except ArgumentError Arguments
  | .verbose => if a.verbose then .error .argumentConflict else .ok { a with verbose := true }
  | .quiet => if a.quiet then .error .argumentConflict else .ok { a with quiet := true }
  | .help => .error .help

structure Scan where
  arguments : Arguments := {}
  /-- The option whose value has not been looked at, and the value once it is there. -/
  pending : Option (ValueOption × Option Text) := none
  /-- Two dashes have been read. -/
  escaped : Bool := false

namespace Scan

def settle (s : Scan) : Except ArgumentError Arguments :=
  match s.pending with
  | none => .ok s.arguments
  | some (_, none) => .error .invalidValue
  | some (o, some v) => s.arguments.assign o v

def settleThen (s : Scan) (change : Arguments → Except ArgumentError Arguments) :
    Except ArgumentError Scan := do
  let a ← change (← s.settle)
  pure { s with arguments := a, pending := none }

def takePrefix (s : Scan) (t : Text) : Except ArgumentError Scan :=
  s.settleThen fun a => .ok { a with prefixes := a.prefixes ++ [t] }

def await (s : Scan) (o : ValueOption) : Except ArgumentError Scan := do
  let a ← s.settle
  pure { s with arguments := a, pending := some (o, none) }

def takeLong (s : Scan) (name : Text) (value : Option Text) : Except ArgumentError Scan :=
  match CommandOption.ofLong? name, value with
  | none, _ => .error .unknownArgument
  | some (.value o), some v => s.settleThen (·.assign o v)
  | some (.value o), none => s.await o
  | some (.switch _), some _ => .error .tooManyValues
  | some (.switch o), none => s.settleThen (·.switchOn o)

def takeShorts (s : Scan) : Text → Except ArgumentError Scan
  | [] => .ok s
  | c :: r =>
    match CommandOption.ofShort? c with
    | none => .error .unknownArgument
    | some (.switch o) =>
      match s.settleThen (·.switchOn o) with
      | .error e => .error e
      | .ok s' => takeShorts s' r
    | some (.value o) =>
      match r with
      | [] => s.await o
      | '=' :: v => s.settleThen (·.assign o v)
      | v => s.settleThen (·.assign o v)

def takePlain (s : Scan) (t : Text) : Except ArgumentError Scan :=
  match s.pending with
  | some (o, none) => .ok { s with pending := some (o, some t) }
  | _ => s.takePrefix t

def splitValue (t : Text) : Text × Option Text :=
  match t.dropWhile (· ≠ '=') with
  | [] => (t, none)
  | _ :: v => (t.takeWhile (· ≠ '='), some v)

def step (s : Scan) (t : Text) : Except ArgumentError Scan :=
  if s.escaped then s.takePrefix t
  else
    match t with
    | ['-', '-'] => .ok { s with escaped := true }
    | '-' :: '-' :: r => s.takeLong (splitValue r).1 (splitValue r).2
    | '-' :: c :: r => s.takeShorts (c :: r)
    | _ => s.takePlain t

end Scan

def scan : Scan → List Text → Except ArgumentError Scan
  | s, [] => .ok s
  | s, t :: ts =>
    match s.step t with
    | .error e => .error e
    | .ok s' => scan s' ts

def parse (ts : List Text) : Except ArgumentError Arguments :=
  match scan {} ts with
  | .error e => .error e
  | .ok s => s.settle

inductive Invalid
  | verboseAndQuiet
  | zeroTimeout
  deriving DecidableEq, Repr

def Invalid.message : Invalid → Text
  | verboseAndQuiet => "Verbose and quiet modes are mutually exclusive"
  | zeroTimeout => "The timeout must be a positive number of seconds"

def validate (a : Arguments) : Except Invalid Arguments :=
  if a.verbose && a.quiet then .error .verboseAndQuiet
  else if a.timeout = some 0 then .error .zeroTimeout
  else .ok a

end Arguments

end TriBench
