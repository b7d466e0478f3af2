import TriBench.Text.Basic

/-!
# UTF-8

Bytes become text one at a time: the decoder holds what it has of a character and what its next byte
may be. A sequence that breaks off, and a byte that starts none, become one replacement character
each, and the byte that broke a sequence off starts anew. Main statements: a line feed or tab is
never part of a sequence, so decoding goes on from it as from the start.
-/

namespace TriBench

abbrev Bytes := List UInt8

def Text.toBytes (s : Text) : Bytes := s.flatMap String.utf8EncodeChar

namespace Utf8

def replacement : Char := '\uFFFD'

inductive State
  | start
  /-- One byte and `more` others are missing. Each brings six bits, the next one a number between
  `low` and `high`; the bits read so far are those of `value`. -/
  | within (more : Nat) (low high : Nat) (value : Nat)
  deriving DecidableEq, Repr

def first (b : UInt8) : Text × State :=
  let n := b.toNat
  if n < 0x80 then ([Char.ofNat n], .start)
  else if n < 0xC2 then ([replacement], .start)
  else if n < 0xE0 then ([], .within 0 0x00 0x3F (n - 0xC0))
  else if n = 0xE0 then ([], .within 1 0x20 0x3F 0)
  else if n = 0xED then ([], .within 1 0x00 0x1F 0xD)
  else if n < 0xF0 then ([], .within 1 0x00 0x3F (n - 0xE0))
  else if n = 0xF0 then ([], .within 2 0x10 0x3F 0)
  else if n < 0xF4 then ([], .within 2 0x00 0x3F (n - 0xF0))
  else if n = 0xF4 then ([], .within 2 0x00 0x0F 4)
  else ([replacement], .start)

/-- The six bits that a byte adds to a sequence which awaits a number between `low` and `high`. -/
def bits? (low high : Nat) (b : UInt8) : Option Nat :=
  let n := b.toNat
  if 0x80 ≤ n ∧ low ≤ n - 0x80 ∧ n - 0x80 ≤ high then some (n - 0x80) else none

def step : State → UInt8 → Text × State
  | .start, b => first b
  | .within more low high value, b =>
    match bits? low high b with
    | none => (replacement :: (first b).1, (first b).2)
    | some bits =>
      match more with
      | 0 => ([Char.ofNat (64 * value + bits)], .start)
      | k + 1 => ([], .within k 0x00 0x3F (64 * value + bits))

/-- What is left of a sequence at the end of the bytes. -/
def finish : State → Text
  | .start => []
  | .within .. => [replacement]

def decodeFrom : State → Bytes → Text
  | q, [] => finish q
  | q, b :: r => (step q b).1 ++ decodeFrom (step q b).2 r

/-- The text of the bytes, with one replacement character for each sequence that is not UTF-8. -/
def decode (bytes : Bytes) : Text := decodeFrom .start bytes

def isValidFrom : State → Bytes → Bool
  | q, [] => q = .start
  | .start, b :: r => (b < 0x80 || (first b).2 ≠ .start) && isValidFrom (first b).2 r
  | .within more low high value, b :: r =>
    (bits? low high b).isSome && isValidFrom (step (.within more low high value) b).2 r

def decode? (bytes : Bytes) : Option Text :=
  if isValidFrom .start bytes then some (decode bytes) else none

theorem step_ascii (q : State) (b : UInt8) (h : b.toNat < 0x80) :
    step q b = (finish q ++ [Char.ofNat b.toNat], .start) := by
  have hf : first b = ([Char.ofNat b.toNat], .start) := by simp [first, h]
  cases q with
  | start => simp [step, hf, finish]
  | within more low high value =>
    have hb : bits? low high b = none := by simp [bits?]; omega
    simp [step, hb, hf, finish]

theorem decodeFrom_ascii (q : State) (b : UInt8) (r : Bytes) (h : b.toNat < 0x80) :
    decodeFrom q (b :: r) = finish q ++ Char.ofNat b.toNat :: decode r := by
  simp [decodeFrom, step_ascii q b h, decode]

end Utf8

end TriBench
