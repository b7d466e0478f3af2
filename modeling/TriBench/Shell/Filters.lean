import TriBench.Shell.Machine
import TriBench.Text.Blank

/-!
# Filters

Programs that read texts and write what they make of them. Their operands are files; without any
they read their standard input.
-/

namespace TriBench.Shell

abbrev Utility := List Text → Act Nat

namespace Utility

/-- The reason for an error without its number. -/
def reason (e : IoError) : Text := Text.trimEnd (e.message.takeWhile (· ≠ '('))

def complain (message : Text) : Act Unit := do
  Act.say 2 ((← Act.process).name ++ ": " ++ message ++ ['\n'])

def inApostrophes (t : Text) : Text := '\'' :: t ++ ['\'']

def misused (message : Text) : Act Nat := do
  complain message
  Act.say 2 ("Try '" ++ (← Act.process).name ++ " --help' for more information.\n")
  return 1

def missingOperand : Act Nat := misused "missing operand"

/-- The switches at the front, as letters, and the operands behind them. -/
def switches : List Text → Text × List Text
  | ['-', '-'] :: r => ([], r)
  | ('-' :: c :: t) :: r =>
    let (letters, operands) := switches r
    (c :: t ++ letters, operands)
  | operands => ([], operands)

def open? (operand : Text) : Act (Except IoError Stream) := do
  match String.ofList operand with
  | "-" => return .ok (← Act.readAll 0)
  | "/dev/stdin" => return .ok (← Act.readAll 0)
  | "/dev/null" => return .ok (.finite [])
  | "/dev/zero" => return .ok (.endless [0])
  | _ => return ((← Act.files).read ⟨operand⟩).map .finite

def unreadable (operand reason : Text) : Text := operand ++ ": " ++ reason

/-- Does something with each operand, or with the standard input without any, and tells which
cannot be read. -/
def forEach (complaint : Text → Text → Text) (operands : List Text)
    (use : Stream → Act Unit) : Act Nat := do
  let mut result := 0
  for operand in if operands = [] then [['-']] else operands do
    match ← open? operand with
    | .ok s => use s
    | .error e =>
      complain (complaint operand (reason e))
      result := 1
  return result

/-- The whole of a stream, which has to end. -/
def whole : Stream → Act Bytes
  | .finite content => return content
  | .endless _ => throw .never

def lines : Bytes → List Bytes
  | [] => []
  | b :: r =>
    if b = 10 then [10] :: lines r
    else
      match lines r with
      | [] => [[b]]
      | l :: ls => (b :: l) :: ls

def withoutLineFeed (line : Bytes) : Bytes := if line.getLast? = some 10 then line.dropLast else line

def cat : Utility := fun args => do
  let (_, operands) := switches args
  forEach unreadable operands (Act.pour 1)

/-- A count with a letter for its unit. -/
def count? (t : Text) : Option Nat :=
  let digits := t.takeWhile Char.isDigit
  let unit : Option Nat := match t.dropWhile Char.isDigit with
    | [] => some 1
    | ['b'] => some 512
    | ['k'] => some 1024
    | ['K'] => some 1024
    | ['M'] => some (1024 * 1024)
    | ['k', 'B'] => some 1000
    | ['M', 'B'] => some (1000 * 1000)
    | _ => none
  unit.bind fun u => (Text.digits? digits).map (· * u)

def front (inBytes : Bool) (n : Nat) : Stream → Bytes
  | .finite content => if inBytes then content.take n else ((lines content).take n).flatten
  | .endless period =>
    if inBytes then
      ((List.replicate (n / max 1 period.length + 1) period).flatten).take n
    else (((lines (List.replicate n period).flatten)).take n).flatten

/-- What is asked of `head` or `tail`: bytes or lines, from a place on, how many; and the
operands. -/
structure Extent where
  inBytes : Bool := false
  fromStart : Bool := false
  amount : Nat := 10

def extent : List Text → Extent → Option (Extent × List Text)
  | ['-', 'n'] :: v :: r, e => amount v { e with inBytes := false } r
  | ['-', 'c'] :: v :: r, e => amount v { e with inBytes := true } r
  | ('-' :: 'n' :: v) :: r, e => amount v { e with inBytes := false } r
  | ('-' :: 'c' :: v) :: r, e => amount v { e with inBytes := true } r
  | ('-' :: d :: v) :: r, e => if d.isDigit then amount (d :: v) e r else none
  | operands, e => some (e, operands)
where
  amount (v : Text) (e : Extent) (r : List Text) : Option (Extent × List Text) :=
    match v with
    | '+' :: v => (count? v).map fun n => ({ e with amount := n, fromStart := true }, r)
    | v => (count? v).map fun n => ({ e with amount := n }, r)

def unopened (operand reason : Text) : Text :=
  "cannot open " ++ inApostrophes operand ++ " for reading: " ++ reason

def head : Utility := fun args => do
  match extent args {} with
  | none => misused "invalid number"
  | some (e, operands) =>
    forEach unopened operands fun s => Act.write 1 (front e.inBytes e.amount s)

def tail : Utility := fun args => do
  match extent args {} with
  | none => misused "invalid number"
  | some (e, operands) =>
    forEach unopened operands fun s => do
      let content ← whole s
      let units := if e.inBytes then content.map fun b => [b] else lines content
      let kept := if e.fromStart then units.drop (e.amount - 1)
        else units.drop (units.length - e.amount)
      Act.write 1 kept.flatten

def isSpace (b : UInt8) : Bool := b = 32 || (9 ≤ b && b ≤ 13)

/-- The number of rows of bytes that are no blanks; the flag says whether the last byte was in
one. -/
def wordCount : Bool → Bytes → Nat
  | _, [] => 0
  | inWord, b :: r =>
    if isSpace b then wordCount false r
    else if inWord then wordCount true r
    else wordCount true r + 1

def wc : Utility := fun args => do
  let (letters, operands) := switches args
  let counts (content : Bytes) : List Nat :=
    let wanted (c : Char) : Bool := letters = [] || c ∈ letters
    (if wanted 'l' then [content.count 10] else []) ++
      (if wanted 'w' then [wordCount false content] else []) ++
      (if wanted 'c' ∨ 'm' ∈ letters then [content.length] else [])
  let show' (width : Nat) (ns : List Nat) (name : Text) : Act Unit :=
    let columns := ns.map fun n => Text.padLeft (if ns.length = 1 then 0 else width) (Text.ofNat n)
    Act.say 1 (Text.joinWith [' '] (columns ++ if name = [] then [] else [name]) ++ ['\n'])
  if operands = [] then
    show' 7 (counts (← whole (← Act.readAll 0))) []
    return 0
  else
    let mut result := 0
    for operand in operands do
      match ← open? operand with
      | .ok s =>
        let content ← whole s
        show' (Text.ofNat content.length).length (counts content) operand
      | .error e =>
        complain (operand ++ ": " ++ reason e)
        result := 1
    return result

def bytesFrom (low high : Nat) : Bytes := (List.range (high + 1 - low)).map fun n => UInt8.ofNat (low + n)

def characterClass? (name : Text) : Option Bytes :=
  let upper := bytesFrom 65 90
  let lower := bytesFrom 97 122
  let digit := bytesFrom 48 57
  match String.ofList name with
  | "upper" => some upper
  | "lower" => some lower
  | "digit" => some digit
  | "alpha" => some (upper ++ lower)
  | "alnum" => some (digit ++ upper ++ lower)
  | "space" => some (bytesFrom 9 13 ++ [32])
  | "blank" => some [9, 32]
  | "punct" => some (bytesFrom 33 47 ++ bytesFrom 58 64 ++ bytesFrom 91 96 ++ bytesFrom 123 126)
  | _ => none

/-- The bytes of a set as `tr` takes it: ranges, classes, and escapes with a backslash. -/
def setFrom : Nat → Text → Bytes
  | 0, _ => []
  | _ + 1, [] => []
  | n + 1, '[' :: ':' :: r =>
    match characterClass? (r.takeWhile (· ≠ ':')) with
    | some bs => bs ++ setFrom n ((r.dropWhile (· ≠ ':')).drop 2)
    | none => 91 :: setFrom n (':' :: r)
  | n + 1, t =>
    let (first, rest) := item t
    match rest with
    | '-' :: c :: r =>
      let (last, rest) := item (c :: r)
      match first, last with
      | [a], [b] => bytesFrom a.toNat b.toNat ++ setFrom n rest
      | _, _ => first ++ setFrom n ('-' :: c :: r)
    | rest => first ++ setFrom n rest
where
  item : Text → Bytes × Text
    | '\\' :: c :: r =>
      let octal := (c :: r).take 3 |>.takeWhile fun d => '0' ≤ d ∧ d ≤ '7'
      if octal = [] then
        let b : Bytes := match c with
          | 'n' => [10]
          | 't' => [9]
          | 'r' => [13]
          | 'a' => [7]
          | 'b' => [8]
          | 'f' => [12]
          | 'v' => [11]
          | c => Text.toBytes [c]
        (b, r)
      else
        ([UInt8.ofNat (octal.foldl (fun v d => 8 * v + (d.toNat - '0'.toNat)) 0)],
          (c :: r).drop octal.length)
    | c :: r => (Text.toBytes [c], r)
    | [] => ([], [])

def set (t : Text) : Bytes := setFrom (t.length + 1) t

/-- Replaces each byte of one set by the byte at its place in the other, whose last one stands for
those that are missing. -/
def translate (old new : Bytes) (b : UInt8) : UInt8 :=
  match (old.reverse.idxOf? b).map (old.length - 1 - ·) with
  | some n => (new[n]?).getD (new.getLast?.getD b)
  | none => b

def squeeze (bs : Bytes) : Bytes → Bytes
  | [] => []
  | [a] => [a]
  | a :: b :: r => if a = b ∧ a ∈ bs then squeeze bs (b :: r) else a :: squeeze bs (b :: r)

def mapStream (f : Bytes → Bytes) : Stream → Stream
  | .finite content => .finite (f content)
  | .endless period => .endless (f period)

def tr : Utility := fun args => do
  let (letters, operands) := switches args
  match operands with
  | [] => missingOperand
  | first :: more =>
    let all := bytesFrom 0 255
    let old := if 'c' ∈ letters ∨ 'C' ∈ letters then all.filter (· ∉ set first) else set first
    let new := set (more.headD [])
    let table := all.map (translate old new)
    let change (content : Bytes) : Bytes :=
      if 'd' ∈ letters then content.filter (· ∉ old)
      else if more = [] then content
      else content.map fun b => (table[b.toNat]?).getD b
    let squeezed (content : Bytes) : Bytes :=
      if 's' ∈ letters then squeeze (if more = [] then old else new) content else content
    Act.pour 1 (mapStream (squeezed ∘ change) (← Act.readAll 0))
    return 0

def gatherLines (complaint : Text → Text → Text) (operands : List Text) : Act (List Bytes × Nat) := do
  let mut result := 0
  let mut found : List Bytes := []
  for operand in if operands = [] then [['-']] else operands do
    match ← open? operand with
    | .ok s => found := found ++ (lines (← whole s)).map withoutLineFeed
    | .error e =>
      complain (complaint operand (reason e))
      result := 2
  return (found, result)

def sayLines (ls : List Bytes) : Act Unit := Act.write 1 (ls.flatMap (· ++ [10]))

def leadingInteger (line : Bytes) : Int :=
  match (Utf8.decode line).dropWhile fun c => c = ' ' ∨ c = '\t' with
  | '-' :: t => -((Text.digits? (t.takeWhile Char.isDigit)).getD 0 : Nat)
  | t => (Text.digits? (t.takeWhile Char.isDigit)).getD 0

def keepFirsts : List Bytes → List Bytes
  | [] => []
  | [a] => [a]
  | a :: b :: r => if a = b then keepFirsts (a :: r) else a :: keepFirsts (b :: r)
  termination_by ls => ls.length

def sort : Utility := fun args => do
  let (letters, operands) := switches args
  let (found, result) ← gatherLines (fun p r => "cannot read: " ++ unreadable p r) operands
  let texts (a b : Bytes) : Bool := (compare (a.map UInt8.toNat) (b.map UInt8.toNat)).isLE
  let order (a b : Bytes) : Bool :=
    if 'n' ∈ letters ∧ leadingInteger a ≠ leadingInteger b then leadingInteger a < leadingInteger b
    else texts a b
  let sorted := found.mergeSort fun a b => if 'r' ∈ letters then order b a else order a b
  sayLines (if 'u' ∈ letters then keepFirsts sorted else sorted)
  return result

def uniq : Utility := fun args => do
  let (letters, operands) := switches args
  let (found, result) ← gatherLines unreadable (operands.take 1)
  let runs := found.splitBy fun a b => a = b
  if 'c' ∈ letters then
    for run in runs do
      Act.say 1 (Text.padLeft 7 (Text.ofNat run.length) ++ [' '])
      sayLines (run.take 1)
  else if 'd' ∈ letters then sayLines ((runs.filter fun r => 1 < r.length).flatMap (·.take 1))
  else if 'u' ∈ letters then sayLines ((runs.filter fun r => r.length = 1).flatMap (·.take 1))
  else sayLines (runs.flatMap (·.take 1))
  return result

def tee : Utility := fun args => do
  let (letters, operands) := switches args
  let content ← whole (← Act.readAll 0)
  let mut result := 0
  for operand in operands do
    let files ← Act.files
    let old := if 'a' ∈ letters then (files.read ⟨operand⟩).toOption.getD [] else []
    match ← Act.changeFiles fun fs => fs.writeFile ⟨operand⟩ (old ++ content) with
    | none => pure ()
    | some e =>
      complain (operand ++ ": " ++ reason e)
      result := 1
  Act.write 1 content
  return result

def yes : Utility := fun args => do
  let line := if args = [] then ['y'] else Text.joinWith [' '] args
  Act.pour 1 (.endless (Text.toBytes (line ++ ['\n'])))
  return 0

def seqFrom (step : Int) : Nat → Int → List Int
  | 0, _ => []
  | n + 1, x => x :: seqFrom step n (x + step)

def seq : Utility := fun args => do
  let run (first step last : Int) : Act Nat := do
    if step = 0 then misused "invalid Zero increment value: '0'"
    else
      let steps := Int.fdiv (last - first) step
      for x in if steps < 0 then [] else seqFrom step (steps.toNat + 1) first do
        Act.say 1 (Text.ofInt x ++ ['\n'])
      return 0
  match args.mapM Text.int64? with
  | none =>
    let bad := (args.find? fun a => (Text.int64? a).isNone).getD []
    misused ("invalid floating point argument: " ++ inApostrophes bad)
  | some [last] => run 1 1 last
  | some [first, last] => run first 1 last
  | some [first, step, last] => run first step last
  | some _ => missingOperand

/-- The places that a list such as `1,3-5` selects. -/
def isSelected (places : Text) (n : Nat) : Bool :=
  (Text.splitOn ',' places).any fun part =>
    match Text.splitOn '-' part with
    | [a] => Text.digits? a = some n
    | [a, b] => (Text.digits? a).getD 1 ≤ n && ((Text.digits? b).map (decide <| n ≤ ·)).getD true
    | _ => false

structure Selection where
  delimiter : Char := '\t'
  fields : Option Text := none
  places : Option Text := none

def selection (s : Selection) : List Text → Selection × List Text
  | ['-', 'd'] :: (c :: _) :: r => selection { s with delimiter := c } r
  | ['-', 'f'] :: v :: r => selection { s with fields := some v } r
  | ['-', 'c'] :: v :: r => selection { s with places := some v } r
  | ('-' :: 'd' :: c :: _) :: r => selection { s with delimiter := c } r
  | ('-' :: 'f' :: v) :: r => selection { s with fields := some v } r
  | ('-' :: 'c' :: v) :: r => selection { s with places := some v } r
  | operands => (s, operands)

def cut : Utility := fun args => do
  let (⟨delimiter, fields, places⟩, operands) := selection {} args
  let (found, result) ← gatherLines unreadable operands
  let select {α : Type} (wanted : Text) (l : List α) : List α :=
    (l.zipIdx 1).filterMap fun (a, n) => if isSelected wanted n then some a else none
  let cutLine (line : Bytes) : Bytes :=
    match fields, places with
    | some wanted, _ =>
      let t := Utf8.decode line
      if delimiter ∉ t then line
      else Text.toBytes (Text.joinWith [delimiter] (select wanted (Text.splitOn delimiter t)))
    | none, some wanted => select wanted line
    | none, none => line
  sayLines (found.map cutLine)
  return min result 1

end Utility

end TriBench.Shell
