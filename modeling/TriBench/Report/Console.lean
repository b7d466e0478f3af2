import TriBench.Results
import TriBench.Decimal.Binary64

/-!
# The console report

A table with one line a record, a header and a rule of dashes. Sandboxed times are followed by their
ratio to the native time. A column is as wide as its longest cell is in bytes of UTF-8, and cells
are filled up with blanks to that number of characters.
-/

namespace TriBench.Report

def headers : List Text :=
  ["TEST", "PARAM", "LINUX (ns)", "LIND (ns)", "GRATE (ns)", "ITERATIONS"]

def gutter : Text := "  "

def placeholder : Text := "--"

def cell : Measurement → Text
  | .notMeasured => placeholder
  | .reported value => value

/-- The quotient of two positive integers of 64 bits with three decimals: both are rounded to
binary64, then their quotient, then the decimal. -/
def ratio (value base : Nat) : Text :=
  ((Decimal.Binary64.ofNat value).div (Decimal.Binary64.ofNat base)).fixed 3

/-- The value with its ratio to the base; alone if the base is not a positive number, and the
placeholder if the value is no number or negative. -/
def ratioCell (value base : Measurement) : Text :=
  if value.integer < 0 then placeholder
  else if base.integer ≤ 0 then value.text
  else
    Text.ofInt value.integer ++ " (" ++ ratio value.integer.toNat base.integer.toNat ++ ")"

def cells (test : Text) (param : Int) (r : Record) : List Text :=
  [test, Text.ofInt param, cell r.linux, ratioCell r.lind r.linux, ratioCell r.grate r.linux,
   cell r.loops]

def widths (rows : List (List Text)) : List Nat :=
  rows.foldl (fun ws row => List.zipWith (fun w c => max w (Text.byteLength c)) ws row)
    (headers.map Text.byteLength)

def line (ws : List Nat) (row : List Text) : Text :=
  Text.joinWith gutter (List.zipWith (fun c w => Text.padRight w c) row ws) ++ ['\n']

def rule (ws : List Nat) : Text :=
  Text.joinWith gutter (ws.map fun w => List.replicate w '-') ++ ['\n']

def console (t : Results) : Text :=
  let rows := t.rows.map fun r => cells r.1 r.2.1 r.2.2
  let ws := widths rows
  line ws headers ++ rule ws ++ rows.flatMap (line ws)

end TriBench.Report
