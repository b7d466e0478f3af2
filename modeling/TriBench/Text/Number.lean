import TriBench.Text.Basic

/-!
# Numbers in text

Reads decimal integers of 64 bits: ASCII digits only, leading zeros allowed, no blanks. A signed
number may carry either sign, an unsigned one only a plus.
-/

namespace TriBench.Text

def digit? (c : Char) : Option Nat :=
  if '0' ≤ c ∧ c ≤ '9' then some (c.toNat - '0'.toNat) else none

def digitsFrom? (acc : Nat) : Text → Option Nat
  | [] => some acc
  | c :: r => (digit? c).bind fun d => digitsFrom? (10 * acc + d) r

def digits? (s : Text) : Option Nat := if s = [] then none else digitsFrom? 0 s

def maxInt64 : Nat := Nat.pow 2 63 - 1

def maxUInt64 : Nat := Nat.pow 2 64 - 1

def int64? : Text → Option Int
  | '-' :: r => (digits? r).bind fun n => if n ≤ maxInt64 + 1 then some (-(n : Int)) else none
  | '+' :: r => (digits? r).bind fun n => if n ≤ maxInt64 then some (n : Int) else none
  | s => (digits? s).bind fun n => if n ≤ maxInt64 then some (n : Int) else none

def uint64? : Text → Option Nat
  | '+' :: r => (digits? r).filter (· ≤ maxUInt64)
  | s => (digits? s).filter (· ≤ maxUInt64)

end TriBench.Text
