import TriBench.Decimal.Shortest

/-!
# JSON values

A value as far as a text could be read: `broken` stands where the text stops being JSON, so a value
without it is a whole one. Numbers without fraction and exponent are kept exactly while they fit in
64 bits; all others are binary64.
-/

namespace TriBench

inductive Json.Number
  | natural (value : Nat)
  | negative (value : Int)
  | float (minus : Bool) (value : Decimal.Binary64)
  deriving DecidableEq, Repr

mutual

inductive Json
  | null
  | bool (value : Bool)
  | number (value : Json.Number)
  | string (value : Text)
  | array (items : Json.Items)
  | object (members : Json.Members)
  | broken

inductive Json.Items
  | nil
  | cons (head : Json) (tail : Json.Items)
  | broken

inductive Json.Members
  | nil
  | cons (key : Text) (value : Json) (tail : Json.Members)
  | broken

end

namespace Json

def Items.ofList : List Json → Items
  | [] => .nil
  | v :: vs => .cons v (ofList vs)

def Members.ofList : List (Text × Json) → Members
  | [] => .nil
  | (k, v) :: ms => .cons k v (ofList ms)

def ofMembers (ms : List (Text × Json)) : Json := .object (Members.ofList ms)

end Json

end TriBench
