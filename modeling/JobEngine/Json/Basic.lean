/-! JSON values. A number written with a point or an exponent stays apart from an integer, because
a field that holds an integer refuses `1.0`. Such a number has a sign of its own, which zero keeps.
-/

namespace JobEngine

inductive Json where
  | null
  | bool (b : Bool)
  | int (n : Int)
  | decimal (isNegative : Bool) (digits places : Nat)
  | str (s : String)
  | arr (items : List Json)
  | obj (fields : List (String × Json))
  deriving Inhabited

namespace Json

/-- The value of a field of an object. -/
def field? : Json → String → Option Json
  | .obj fields, name => (fields.find? (·.1 == name)).map (·.2)
  | _, _ => none

def text? : Json → Option String
  | .str s => some s
  | _ => none

def int? : Json → Option Int
  | .int n => some n
  | _ => none

def nat? : Json → Option Nat
  | .int n => if 0 ≤ n then some n.toNat else none
  | _ => none

def bool? : Json → Option Bool
  | .bool b => some b
  | _ => none

def items? : Json → Option (List Json)
  | .arr items => some items
  | _ => none

def fields? : Json → Option (List (String × Json))
  | .obj fields => some fields
  | _ => none

def ofOption (encode : α → Json) : Option α → Json
  | none => .null
  | some a => encode a

end Json

end JobEngine
