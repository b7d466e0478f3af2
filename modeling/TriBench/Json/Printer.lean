import TriBench.Json.Basic

/-!
# Written JSON

Texts are quoted with the shortest escapes and nothing beyond ASCII control characters, quotes and
backslashes is escaped. The layout puts each item and member on its own line, two blanks deeper than
what holds it; an empty array or object stays on one line.
-/

namespace TriBench.Json

def hexDigit (n : Nat) : Char := if n < 10 then Char.ofNat (48 + n) else Char.ofNat (87 + n)

def escapeChar (c : Char) : Text :=
  if c = '"' then ['\\', '"']
  else if c = '\\' then ['\\', '\\']
  else if c = '\x08' then ['\\', 'b']
  else if c = '\t' then ['\\', 't']
  else if c = '\n' then ['\\', 'n']
  else if c = '\x0c' then ['\\', 'f']
  else if c = '\r' then ['\\', 'r']
  else if c.toNat < 32 then
    ['\\', 'u', '0', '0', hexDigit (c.toNat / 16), hexDigit (c.toNat % 16)]
  else [c]

def quote (s : Text) : Text := '"' :: s.flatMap escapeChar ++ ['"']

/-- A binary64 number with the fewest digits, with a point always: positional from 10⁻⁵ to below
10¹⁶, else with a signed exponent of at least two digits. -/
def floatText (minus : Bool) (b : Decimal.Binary64) : Text :=
  let (digits, power) := b.shortest
  let ds := Text.ofNat digits
  let leading : Int := power + ds.length - 1
  let body : Text :=
    if digits = 0 then "0.0"
    else if leading < -5 ∨ 15 < leading then
      let mantissa := match ds with
        | d :: e :: r => d :: '.' :: e :: r
        | one => one
      let size := Text.ofNat leading.natAbs
      let filled := List.replicate (2 - size.length) '0' ++ size
      mantissa ++ (if leading < 0 then "e-" else "e+") ++ filled
    else if 0 ≤ power then Text.ofNat (digits * Nat.pow 10 power.toNat) ++ ".0"
    else Decimal.pointed (-power).toNat digits
  if minus then '-' :: body else body

def Number.text : Number → Text
  | .natural n => Text.ofNat n
  | .negative i => Text.ofInt i
  | .float minus b => floatText minus b

def indent (depth : Nat) : Text := '\n' :: List.replicate (2 * depth) ' '

mutual

def pretty (depth : Nat) : Json → Text
  | .null => "null"
  | .bool b => if b then "true" else "false"
  | .number n => n.text
  | .string s => quote s
  | .array .nil => "[]"
  | .array items => '[' :: items.pretty (depth + 1) ++ indent depth ++ [']']
  | .object .nil => ['\x7b', '\x7d']
  | .object members => '\x7b' :: members.pretty (depth + 1) ++ indent depth ++ ['\x7d']
  | .broken => []

def Items.pretty (depth : Nat) : Items → Text
  | .nil => []
  | .cons v .nil => indent depth ++ v.pretty depth
  | .cons v vs => indent depth ++ v.pretty depth ++ ',' :: vs.pretty depth
  | .broken => []

def Members.pretty (depth : Nat) : Members → Text
  | .nil => []
  | .cons k v .nil => indent depth ++ quote k ++ ':' :: ' ' :: v.pretty depth
  | .cons k v ms =>
    indent depth ++ quote k ++ ':' :: ' ' :: v.pretty depth ++ ',' :: ms.pretty depth
  | .broken => []

end

end TriBench.Json
