import TriBench.Text.Basic

/-!
# Rounding to binary64

A non-negative number of the binary64 format is a significand below 2⁵³ times a power of two. All
roundings go to the nearest number and, from the middle of two, to the one with the even
significand. They are computed from exact quotients of natural numbers.
-/

namespace TriBench.Decimal

/-- The integer nearest to `num / den`; a half goes to the even neighbour. -/
def roundDiv (num den : Nat) : Nat :=
  let q := num / den
  let r := num % den
  if 2 * r < den then q else if den < 2 * r then q + 1 else q + q % 2

/-- The number `significand · 2 ^ exponent`. -/
structure Binary64 where
  significand : Nat
  exponent : Int
  deriving DecidableEq, Repr

namespace Binary64

def zero : Binary64 := ⟨0, -1074⟩

/-- The least exponent of a significand, which the numbers next to zero have. -/
def leastExponent : Int := -1074

/-- The exponent of the significand to which `num / den` is rounded: 53 digits remain, fewer next
to zero. -/
def exponentFor (num den : Nat) : Int :=
  let k : Int := (num.log2 : Int) - den.log2
  max leastExponent (if den * Nat.pow 2 k.toNat ≤ num * Nat.pow 2 (-k).toNat then k - 52 else k - 53)

def ofRatio (num den : Nat) : Binary64 :=
  if num = 0 then zero
  else
    let e := exponentFor num den
    let m := roundDiv (num * Nat.pow 2 (-e).toNat) (den * Nat.pow 2 e.toNat)
    if m = Nat.pow 2 53 then ⟨Nat.pow 2 52, e + 1⟩ else ⟨m, e⟩

def ofNat (n : Nat) : Binary64 := ofRatio n 1

/-- The exact value as a quotient. -/
def numerator (b : Binary64) : Nat := b.significand * Nat.pow 2 b.exponent.toNat

def denominator (b : Binary64) : Nat := Nat.pow 2 (-b.exponent).toNat

def isInfinite (b : Binary64) : Bool := b.significand ≠ 0 ∧ 971 < b.exponent

def add (a b : Binary64) : Binary64 :=
  ofRatio (a.numerator * b.denominator + b.numerator * a.denominator)
    (a.denominator * b.denominator)

def mul (a b : Binary64) : Binary64 :=
  ofRatio (a.numerator * b.numerator) (a.denominator * b.denominator)

def div (a b : Binary64) : Binary64 :=
  ofRatio (a.numerator * b.denominator) (a.denominator * b.numerator)

end Binary64

/-- The digits of `n` with a point before the last `places` of them, at least one before it. -/
def pointed (places n : Nat) : Text :=
  if places = 0 then Text.ofNat n
  else
    let digits := Text.ofNat n
    let filled := List.replicate (places + 1 - digits.length) '0' ++ digits
    filled.take (filled.length - places) ++ '.' :: filled.drop (filled.length - places)

def Binary64.fixed (places : Nat) (b : Binary64) : Text :=
  pointed places (roundDiv (b.numerator * Nat.pow 10 places) b.denominator)

end TriBench.Decimal
