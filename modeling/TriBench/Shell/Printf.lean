import TriBench.Text.Number
import TriBench.Text.Utf8

/-!
# Formatted output

Escapes with a backslash, and formats whose directives take arguments. A format is used again as
long as arguments are left. Counts are in bytes.
-/

namespace TriBench.Shell.Printf

def octalDigit? (c : Char) : Option Nat := (Text.digit? c).filter (· < 8)

def escape? (c : Char) : Option UInt8 :=
  match c with
  | 'a' => some 7
  | 'b' => some 8
  | 'f' => some 12
  | 'n' => some 10
  | 'r' => some 13
  | 't' => some 9
  | 'v' => some 11
  | '\\' => some 92
  | _ => none

/-- Where the reading of escapes stands: in an octal number, with the digits it may still have. -/
inductive Escaping
  | none
  | backslash
  | octal (value digits : Nat)

/-- The bytes that a text with escapes stands for, and whether it ends all output. An octal number
has at most three digits, with `zero` behind a zero. -/
def unescapeFrom (zero : Bool) : Escaping → Text → Bytes × Bool
  | .none, [] => ([], false)
  | .backslash, [] => ([92], false)
  | .octal v _, [] => ([UInt8.ofNat v], false)
  | .none, c :: r =>
    if c = '\\' then unescapeFrom zero .backslash r
    else
      let (bs, stop) := unescapeFrom zero .none r
      (Text.toBytes [c] ++ bs, stop)
  | .backslash, c :: r =>
    if c = 'c' then ([], true)
    else
      match escape? c, octalDigit? c with
      | some b, _ =>
        let (bs, stop) := unescapeFrom zero .none r
        (b :: bs, stop)
      | none, some d =>
        if zero ∧ d ≠ 0 then
          let (bs, stop) := unescapeFrom zero .none r
          (92 :: Text.toBytes [c] ++ bs, stop)
        else unescapeFrom zero (.octal d (if zero then 3 else 2)) r
      | none, none =>
        let (bs, stop) := unescapeFrom zero .none r
        (92 :: Text.toBytes [c] ++ bs, stop)
  | .octal v digits, c :: r =>
    match if digits = 0 then none else octalDigit? c with
    | some d => unescapeFrom zero (.octal (8 * v + d) (digits - 1)) r
    | none =>
      let (bs, stop) :=
        if c = '\\' then unescapeFrom zero .backslash r
        else
          let (bs, stop) := unescapeFrom zero .none r
          (Text.toBytes [c] ++ bs, stop)
      (UInt8.ofNat v :: bs, stop)

def unescape (zero : Bool) (t : Text) : Bytes × Bool := unescapeFrom zero .none t

structure Directive where
  flags : Text
  width : Option Nat
  precision : Option Nat
  conversion : Char

inductive Segment
  | literal (t : Text)
  | directive (d : Directive)

def isFlag (c : Char) : Bool := c ∈ ['-', '0', '+', ' ', '#']

def directive? (t : Text) : Option (Directive × Text) :=
  let flags := t.takeWhile isFlag
  let t := t.dropWhile isFlag
  let width := Text.digits? (t.takeWhile Char.isDigit)
  let t := t.dropWhile Char.isDigit
  let (precision, t) : Option Nat × Text := match t with
    | '.' :: r => (some ((Text.digits? (r.takeWhile Char.isDigit)).getD 0), r.dropWhile Char.isDigit)
    | t => (none, t)
  match t with
  | c :: r =>
    if c ∈ ['d', 'i', 'u', 'o', 'x', 'X', 'c', 's', 'b'] then
      some (⟨flags, width, precision, c⟩, r)
    else none
  | [] => none

def segments : Nat → Text → List Segment
  | 0, _ => []
  | _ + 1, [] => []
  | n + 1, '%' :: '%' :: r => .literal ['%'] :: segments n r
  | n + 1, '%' :: r =>
    match directive? r with
    | some (d, rest) => .directive d :: segments n rest
    | none => .literal ['%'] :: segments n r
  | n + 1, t => .literal (t.takeWhile (· ≠ '%')) :: segments n (t.dropWhile (· ≠ '%'))

def pad (d : Directive) (b : Bytes) : Bytes :=
  let fill := List.replicate ((d.width.getD 0) - b.length) 32
  if '-' ∈ d.flags then b ++ fill else fill ++ b

/-- A number with at least as many digits as the precision says, padded with zeros if a flag says so
and there is no precision. -/
def padNumber (d : Directive) (sign digits : Text) : Bytes :=
  let digits := List.replicate ((d.precision.getD 1) - digits.length) '0' ++ digits
  if '0' ∈ d.flags ∧ '-' ∉ d.flags ∧ d.precision.isNone then
    let zeros := List.replicate ((d.width.getD 0) - sign.length - digits.length) '0'
    Text.toBytes (sign ++ zeros ++ digits)
  else pad d (Text.toBytes (sign ++ digits))

def valueOf (base : Nat) (t : Text) : Option (Nat × Text) :=
  let digit (c : Char) : Option Nat :=
    let v :=
      if c.isDigit then some (c.toNat - '0'.toNat)
      else if 'a' ≤ c ∧ c ≤ 'f' then some (c.toNat - 'a'.toNat + 10)
      else if 'A' ≤ c ∧ c ≤ 'F' then some (c.toNat - 'A'.toNat + 10)
      else none
    v.filter (· < base)
  let digits := t.takeWhile fun c => (digit c).isSome
  if digits = [] then none
  else some (digits.foldl (fun n c => base * n + (digit c).getD 0) 0, t.drop digits.length)

inductive Refusal
  | noNumber
  | notOnlyNumber
  deriving DecidableEq, Repr

def integer (t : Text) : Int × Option Refusal :=
  match t with
  | [] => (0, none)
  | '\'' :: c :: _ => (c.toNat, none)
  | '"' :: c :: _ => (c.toNat, none)
  | _ =>
    let (negative, digits) : Bool × Text := match t with
      | '-' :: r => (true, r)
      | '+' :: r => (false, r)
      | r => (false, r)
    let found := match digits with
      | '0' :: 'x' :: r => valueOf 16 r
      | '0' :: 'X' :: r => valueOf 16 r
      | '0' :: r => (valueOf 8 ('0' :: r))
      | r => valueOf 10 r
    match found with
    | none => (0, some .noNumber)
    | some (n, rest) =>
      (if negative then -(n : Int) else n, if rest = [] then none else some .notOnlyNumber)

/-- The output of a directive for its argument, whether it ends all output, and what is wrong with
the argument. -/
def Directive.render (d : Directive) (arg : Text) : Bytes × Bool × Option Refusal :=
  match d.conversion with
  | 's' =>
    let b := Text.toBytes arg
    (pad d ((d.precision.map b.take).getD b), false, none)
  | 'b' =>
    let (b, stop) := unescape true arg
    (pad d ((d.precision.map b.take).getD b), stop, none)
  | 'c' => (pad d ((Text.toBytes arg).take 1), false, none)
  | conversion =>
    let (n, refusal) := integer arg
    let sign : Text :=
      if n < 0 then ['-'] else if '+' ∈ d.flags then ['+'] else if ' ' ∈ d.flags then [' '] else []
    let unsigned := (n % Nat.pow 2 64).toNat
    let b := match conversion with
      | 'u' => padNumber d [] (Nat.toDigits 10 unsigned)
      | 'o' => padNumber d (if '#' ∈ d.flags then ['0'] else []) (Nat.toDigits 8 unsigned)
      | 'x' => padNumber d (if '#' ∈ d.flags then ['0', 'x'] else []) (Nat.toDigits 16 unsigned)
      | 'X' =>
        padNumber d (if '#' ∈ d.flags then ['0', 'X'] else [])
          ((Nat.toDigits 16 unsigned).map Char.toUpper)
      | _ => padNumber d sign (Nat.toDigits 10 n.natAbs)
    (b, false, refusal)

structure Output where
  content : Bytes := []
  /-- The arguments that are no numbers where numbers are due. -/
  refused : List (Text × Refusal) := []
  stopped : Bool := false

def renderOnce : List Segment → List Text → Output → List Text × Output
  | [], args, o => (args, o)
  | .literal t :: ss, args, o =>
    let (b, stop) := unescape false t
    let o := { o with content := o.content ++ b, stopped := stop }
    if stop then (args, o) else renderOnce ss args o
  | .directive d :: ss, args, o =>
    let arg := args.headD []
    let (b, stop, refusal) := d.render arg
    let o : Output :=
      { content := o.content ++ b
        refused := o.refused ++ (refusal.map fun r => (arg, r)).toList
        stopped := stop }
    if stop then (args, o) else renderOnce ss args.tail o

def renderFrom (ss : List Segment) : Nat → List Text → Output → Output
  | 0, _, o => o
  | n + 1, args, o =>
    let (rest, o) := renderOnce ss args o
    if o.stopped ∨ rest = [] ∨ rest.length = args.length then o else renderFrom ss n rest o

def render (format : Text) (args : List Text) : Output :=
  renderFrom (segments (format.length + 1) format) (args.length + 1) args {}

end TriBench.Shell.Printf
