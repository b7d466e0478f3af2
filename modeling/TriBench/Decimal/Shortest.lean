import TriBench.Decimal.Binary64

/-!
# Shortest decimals

The text of a binary64 number with the fewest digits that still read back as that number; of two
decimals with as few digits the nearer one counts. The text is positional, without an exponent.
-/

namespace TriBench.Decimal

/-- The numbers that round to `b` lie between `lower` and `upper`, in units of a quarter of its last
place; both ends belong to them when the significand is even. -/
def Binary64.lower (b : Binary64) : Nat :=
  if b.significand = Nat.pow 2 52 ∧ b.exponent ≠ leastExponent then 4 * b.significand - 1
  else 4 * b.significand - 2

def Binary64.upper (b : Binary64) : Nat := 4 * b.significand + 2

/-- The decimal `digits · 10 ^ power` rounds to `b`. -/
def Binary64.holds (b : Binary64) (digits : Nat) (power : Int) : Bool :=
  let x := 4 * (digits * Nat.pow 10 power.toNat) * Nat.pow 2 (-b.exponent).toNat
  let unit := Nat.pow 10 (-power).toNat * Nat.pow 2 b.exponent.toNat
  if b.significand % 2 = 0 then b.lower * unit ≤ x && x ≤ b.upper * unit
  else b.lower * unit < x && x < b.upper * unit

/-- The power of ten of the first digit of `num / den`, which is not zero. -/
def leadingPower (num den : Nat) : Int :=
  if den ≤ num then (Text.ofNat (num / den)).length - 1
  else -((((List.range 400).find? fun j => den ≤ num * Nat.pow 10 j).getD 400 : Nat) : Int)

def Binary64.withDigits? (b : Binary64) (count : Nat) : Option (Nat × Int) :=
  let power := leadingPower b.numerator b.denominator - count + 1
  let num := b.numerator * Nat.pow 10 (-power).toNat
  let den := b.denominator * Nat.pow 10 power.toNat
  let below := num / den
  let nearest := roundDiv num den
  let other := if nearest = below then below + 1 else below
  if b.holds nearest power then some (carried nearest power)
  else if b.holds other power then some (carried other power)
  else none
where
  /-- Ten to the number of digits has one digit too many, a zero. -/
  carried (digits : Nat) (power : Int) : Nat × Int :=
    if digits = Nat.pow 10 count then (Nat.pow 10 (count - 1), power + 1) else (digits, power)

def Binary64.shortest (b : Binary64) : Nat × Int :=
  if b.significand = 0 then (0, 0)
  else ((List.range 17).findSome? fun k => b.withDigits? (k + 1)).getD (b.numerator, 0)

def Binary64.text (b : Binary64) : Text :=
  let (digits, power) := b.shortest
  if 0 ≤ power then Text.ofNat (digits * Nat.pow 10 power.toNat) else pointed (-power).toNat digits

/-- A time in seconds: the whole seconds and the part of a second are each rounded, and then their
sum. -/
def seconds (millis : Nat) : Text :=
  ((Binary64.ofNat (millis / 1000)).add
    ((Binary64.ofNat (millis % 1000 * 1000000)).div (Binary64.ofNat 1000000000))).text

end TriBench.Decimal
