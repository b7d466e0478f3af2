import TriBench.Json.Printer
import TriBench.Json.Reader
import TriBench.Text.Quoted

/-!
# Records in JSON

A record with known fields is read from an object, in which each field may stand once, or from an
array of its first fields in order. Fields that are not given keep the value they have. The value is
read from left to right and the first problem decides.
-/

namespace TriBench.Json

inductive Misfit
  | unknownField (name : Text) (known : List Text)
  | duplicateField (name : Text)
  | wrongType (value : Json) (expected : Text)
  | wrongValue (value : Json) (expected : Text)

inductive ReadError
  | misfit (cause : Misfit)
  /-- The text is not JSON. -/
  | malformed

def kindText : Json → Text
  | .null => "null"
  | .bool b => "boolean `" ++ (if b then "true" else "false") ++ "`"
  | .number (.float minus b) => "floating point `" ++ floatText minus b ++ "`"
  | .number n => "integer `" ++ n.text ++ "`"
  | .string s => "string " ++ Text.quoted s
  | .array _ => "sequence"
  | .object _ => "map"
  | .broken => []

def Misfit.message : Misfit → Text
  | unknownField name known =>
    "unknown field `" ++ name ++ "`, expected one of " ++
      Text.joinWith ", " (known.map fun k => '`' :: k ++ ['`'])
  | duplicateField name => "duplicate field `" ++ name ++ "`"
  | wrongType v expected => "invalid type: " ++ kindText v ++ ", expected " ++ expected
  | wrongValue v expected => "invalid value: " ++ kindText v ++ ", expected " ++ expected

abbrev Decoder (α : Type) := Json → Except ReadError α

def mismatch {α : Type} (expected : Text) : Decoder α
  | .broken => .error .malformed
  | v => .error (.misfit (.wrongType v expected))

def textAs (expected : Text) : Decoder Text
  | .string s => .ok s
  | v => mismatch expected v

def decodeText : Decoder Text := textAs "a string"

def decodeChar : Decoder Char
  | .string [c] => .ok c
  | .string s => .error (.misfit (.wrongValue (.string s) "a character"))
  | v => mismatch "a character" v

def decodeNat : Decoder Nat
  | .number (.natural n) => .ok n
  | .number (.negative i) => .error (.misfit (.wrongValue (.number (.negative i)) "u64"))
  | v => mismatch "u64" v

def decodeItems {α : Type} (decode : Decoder α) : Items → Except ReadError (List α)
  | .nil => .ok []
  | .broken => .error .malformed
  | .cons v vs =>
    match decode v with
    | .error e => .error e
    | .ok x => (decodeItems decode vs).map (x :: ·)

def decodeList {α : Type} (decode : Decoder α) : Decoder (List α)
  | .array items => decodeItems decode items
  | v => mismatch "a sequence" v

structure Field (σ : Type) where
  name : Text
  assign : Json → σ → Except ReadError σ

def Field.of {σ α : Type} (name : Text) (decode : Decoder α) (set : α → σ → σ) : Field σ :=
  ⟨name, fun v s => (decode v).map (set · s)⟩

structure Schema (σ : Type) where
  title : Text
  fields : List (Field σ)

namespace Schema

variable {σ : Type}

def names (sc : Schema σ) : List Text := sc.fields.map Field.name

/-- Takes in the members of an object, of which `seen` have come before. -/
def readMembers (sc : Schema σ) (seen : List Text) (s : σ) : Members → Except ReadError σ
  | .nil => .ok s
  | .broken => .error .malformed
  | .cons k v rest =>
    match sc.fields.find? (·.name = k) with
    | none => .error (.misfit (.unknownField k sc.names))
    | some f =>
      if k ∈ seen then .error (.misfit (.duplicateField k))
      else
        match f.assign v s with
        | .error e => .error e
        | .ok s' => readMembers sc (k :: seen) s' rest

def readItems : List (Field σ) → σ → Items → Except ReadError σ
  | _, s, .nil => .ok s
  | [], _, _ => .error .malformed
  | _, _, .broken => .error .malformed
  | f :: fs, s, .cons v rest =>
    match f.assign v s with
    | .error e => .error e
    | .ok s' => readItems fs s' rest

/-- The record with the given fields in place of those of `s`. -/
def read (sc : Schema σ) (s : σ) : Decoder σ
  | .object members => sc.readMembers [] s members
  | .array items => readItems sc.fields s items
  | v => mismatch sc.title v

end Schema

end TriBench.Json
