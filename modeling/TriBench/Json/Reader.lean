import TriBench.Json.Basic

/-!
# Reading JSON

A text is read from left to right up to the first place where it stops being JSON. Half a surrogate
pair in an escape counts as such a place, and so does a number beyond binary64. Main definition:
`read`, the value and whether the whole text was one.
-/

namespace TriBench.Json

def isBlank (c : Char) : Bool := c = ' ' || c = '\n' || c = '\t' || c = '\r'

def skipBlank (s : Text) : Text := s.dropWhile isBlank

def hexValue? (c : Char) : Option Nat :=
  if '0' ≤ c ∧ c ≤ '9' then some (c.toNat - 48)
  else if 'a' ≤ c ∧ c ≤ 'f' then some (c.toNat - 87)
  else if 'A' ≤ c ∧ c ≤ 'F' then some (c.toNat - 55)
  else none

def hex4? (a b c d : Char) : Option Nat := do
  let a ← hexValue? a
  let b ← hexValue? b
  let c ← hexValue? c
  let d ← hexValue? d
  pure (4096 * a + 256 * b + 16 * c + d)

def simpleEscape? : Char → Option Char
  | '"' => some '"'
  | '\\' => some '\\'
  | '/' => some '/'
  | 'b' => some '\x08'
  | 'f' => some '\x0c'
  | 'n' => some '\n'
  | 'r' => some '\r'
  | 't' => some '\t'
  | _ => none

/-- The rest of a quoted text, of which the opening quote has been read, and what follows it. -/
def quoted : Text → Option (Text × Text)
  | '"' :: r => some ([], r)
  | '\\' :: 'u' :: a :: b :: c :: d :: '\\' :: 'u' :: a' :: b' :: c' :: d' :: r =>
    match hex4? a b c d with
    | none => none
    | some n =>
      if 0xD800 ≤ n ∧ n < 0xDC00 then
        match hex4? a' b' c' d' with
        | none => none
        | some m =>
          if 0xDC00 ≤ m ∧ m < 0xE000 then
            (quoted r).map fun p =>
              (Char.ofNat (0x10000 + 1024 * (n - 0xD800) + (m - 0xDC00)) :: p.1, p.2)
          else none
      else if 0xDC00 ≤ n ∧ n < 0xE000 then none
      else (quoted ('\\' :: 'u' :: a' :: b' :: c' :: d' :: r)).map fun p =>
        (Char.ofNat n :: p.1, p.2)
  | '\\' :: 'u' :: a :: b :: c :: d :: r =>
    match hex4? a b c d with
    | none => none
    | some n =>
      if 0xD800 ≤ n ∧ n < 0xE000 then none
      else (quoted r).map fun p => (Char.ofNat n :: p.1, p.2)
  | '\\' :: c :: r =>
    match simpleEscape? c with
    | none => none
    | some e => (quoted r).map fun p => (e :: p.1, p.2)
  | c :: r =>
    if c.toNat < 32 ∨ c = '\\' then none else (quoted r).map fun p => (c :: p.1, p.2)
  | [] => none

def isDigit (c : Char) : Bool := '0' ≤ c && c ≤ '9'

def digitValue (c : Char) : Nat := c.toNat - 48

/-- The leading digits that fit in 64 bits after `significand`, and the digits beyond them. -/
def fitting (significand : Nat) : Text → Nat × Text
  | [] => (significand, [])
  | d :: ds =>
    let next := 10 * significand + digitValue d
    if next < Nat.pow 2 64 then fitting next ds else (significand, d :: ds)

def powerOfTen (n : Nat) : Decimal.Binary64 := Decimal.Binary64.ofNat (Nat.pow 10 n)

/-- A significand times a power of ten: one multiplication or division by a power that the format
holds, after divisions by 10³⁰⁸ for still smaller numbers. `none` is a number beyond the format. -/
def scaled (fuel : Nat) (f : Decimal.Binary64) (exponent : Int) : Option Decimal.Binary64 :=
  if exponent.natAbs ≤ 308 then
    if 0 ≤ exponent then
      let p := f.mul (powerOfTen exponent.toNat)
      if p.isInfinite then none else some p
    else some (f.div (powerOfTen (-exponent).toNat))
  else if f.significand = 0 then some f
  else if 0 ≤ exponent then none
  else
    match fuel with
    | 0 => some .zero
    | n + 1 => scaled n (f.div (powerOfTen 308)) (exponent + 308)

/-- The exponent part after its letter: its value, and what follows it. Values beyond 32 bits count
as the largest of these. -/
def exponent? (s : Text) : Option (Int × Text) :=
  let (negative, s) := match s with
    | '+' :: r => (false, r)
    | '-' :: r => (true, r)
    | s => (false, s)
  let ds := s.takeWhile isDigit
  if ds = [] then none
  else
    let n := min (Nat.pow 2 31) (ds.foldl (fun acc d => 10 * acc + digitValue d) 0)
    some (if negative then -(n : Int) else n, s.dropWhile isDigit)

def float? (minus : Bool) (whole fraction : Text) (exponent : Int) : Option Number :=
  let (m, beyond) := fitting 0 whole
  let (m, scale) :=
    if beyond = [] then
      let (m', beyond') := fitting m fraction
      (m', -((fraction.length - beyond'.length : Nat) : Int))
    else
      let (m', beyond') := fitting m fraction
      (m', (beyond.length : Int) - (fraction.length - beyond'.length : Nat))
  (scaled 5 (Decimal.Binary64.ofNat m) (scale + exponent)).map (.float minus)

def unsignedNumber? (minus : Bool) (s : Text) : Option (Number × Text) :=
  let whole := s.takeWhile isDigit
  let rest := s.dropWhile isDigit
  let wellStarted := match whole with
    | [] => false
    | '0' :: _ :: _ => false
    | _ => true
  if wellStarted = false then none
  else
    match rest with
    | '.' :: r =>
      let fraction := r.takeWhile isDigit
      if fraction = [] then none
      else
        match r.dropWhile isDigit with
        | e :: r' =>
          if e = 'e' ∨ e = 'E' then
            (exponent? r').bind fun x => (float? minus whole fraction x.1).map (·, x.2)
          else (float? minus whole fraction 0).map (·, e :: r')
        | [] => (float? minus whole fraction 0).map (·, [])
    | e :: r =>
      if e = 'e' ∨ e = 'E' then
        (exponent? r).bind fun x => (float? minus whole [] x.1).map (·, x.2)
      else (integer whole).map (·, e :: r)
    | [] => (integer whole).map (·, [])
where
  /-- Digits alone: an integer while it fits, and minus zero is none. -/
  integer (whole : Text) : Option Number :=
    match fitting 0 whole with
    | (n, []) =>
      if minus = false then some (.natural n)
      else if 0 < n ∧ n ≤ Nat.pow 2 63 then some (.negative (-(n : Int)))
      else some (.float true (Decimal.Binary64.ofNat n))
    | _ => float? minus whole [] 0

def number? : Text → Option (Number × Text)
  | '-' :: r => unsignedNumber? true r
  | s => unsignedNumber? false s

/-- A value and what follows it, which is `none` when the value is broken somewhere. -/
abbrev Reading (α : Type) := α × Option Text

mutual

def readValue : Nat → Text → Reading Json
  | 0, _ => (.broken, none)
  | fuel + 1, s =>
    match skipBlank s with
    | 'n' :: 'u' :: 'l' :: 'l' :: r => (.null, some r)
    | 't' :: 'r' :: 'u' :: 'e' :: r => (.bool true, some r)
    | 'f' :: 'a' :: 'l' :: 's' :: 'e' :: r => (.bool false, some r)
    | '"' :: r =>
      match quoted r with
      | some (t, r') => (.string t, some r')
      | none => (.broken, none)
    | '[' :: r =>
      match skipBlank r with
      | ']' :: r' => (.array .nil, some r')
      | r' =>
        let items := readItems fuel r'
        (.array items.1, items.2)
    | '\x7b' :: r =>
      match skipBlank r with
      | '\x7d' :: r' => (.object .nil, some r')
      | r' =>
        let members := readMembers fuel r'
        (.object members.1, members.2)
    | s' =>
      match number? s' with
      | some (n, r) => (.number n, some r)
      | none => (.broken, none)

def readItems : Nat → Text → Reading Items
  | 0, _ => (.broken, none)
  | fuel + 1, s =>
    match readValue fuel s with
    | (v, none) => (.cons v .broken, none)
    | (v, some r) =>
      match skipBlank r with
      | ']' :: r' => (.cons v .nil, some r')
      | ',' :: r' =>
        match skipBlank r' with
        | ']' :: _ => (.cons v .broken, none)
        | r'' =>
          let tail := readItems fuel r''
          (.cons v tail.1, tail.2)
      | _ => (.cons v .broken, none)

def readMembers : Nat → Text → Reading Members
  | 0, _ => (.broken, none)
  | fuel + 1, s =>
    match skipBlank s with
    | '"' :: r =>
      match quoted r with
      | none => (.broken, none)
      | some (k, r) =>
        match skipBlank r with
        | ':' :: r =>
          match readValue fuel r with
          | (v, none) => (.cons k v .broken, none)
          | (v, some r) =>
            match skipBlank r with
            | '\x7d' :: r' => (.cons k v .nil, some r')
            | ',' :: r' =>
              let tail := readMembers fuel r'
              (.cons k v tail.1, tail.2)
            | _ => (.cons k v .broken, none)
        | _ => (.cons k .broken .broken, none)
    | _ => (.broken, none)

end

/-- The value at the start of the text, and whether only blanks follow it. -/
def read (s : Text) : Json × Bool :=
  match readValue (2 * s.length + 2) s with
  | (v, some r) => (v, skipBlank r = [])
  | (v, none) => (v, false)

def parse? (s : Text) : Option Json :=
  match read s with
  | (v, true) => some v
  | _ => none

end TriBench.Json
