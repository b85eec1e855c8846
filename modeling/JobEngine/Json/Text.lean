import JobEngine.Json.Basic
/-! The compact text of a JSON value: no blanks, the fields of an object in the order in which they
stand, and only quotes, backslashes and control characters escaped. -/

namespace JobEngine.Json

def hexNibble (n : Nat) : Char :=
  if n < 10 then Char.ofNat ('0'.toNat + n) else Char.ofNat ('a'.toNat + (n - 10))

def escapeChar (c : Char) : List Char :=
  match c with
  | '"' => ['\\', '"']
  | '\\' => ['\\', '\\']
  | '\n' => ['\\', 'n']
  | '\r' => ['\\', 'r']
  | '\t' => ['\\', 't']
  | _ =>
    if c.toNat = 8 then ['\\', 'b']
    else if c.toNat = 12 then ['\\', 'f']
    else if c.toNat < 32 then
      ['\\', 'u', '0', '0', hexNibble (c.toNat / 16), hexNibble (c.toNat % 16)]
    else [c]

def quote (s : String) : String :=
  String.ofList ('"' :: (s.toList.flatMap escapeChar ++ ['"']))

/-- A decimal with its point `places` digits from the right. -/
def decimalText (isNegative : Bool) (digits places : Nat) : String :=
  let digits := Nat.toDigits 10 digits
  let digits := List.replicate (places + 1 - digits.length) '0' ++ digits
  let sign := if isNegative then ['-'] else []
  let whole := digits.take (digits.length - places)
  let fraction := digits.drop (digits.length - places)
  String.ofList (sign ++ whole ++ '.' :: (if fraction.isEmpty then ['0'] else fraction))

mutual

def text : Json → String
  | .null => "null"
  | .bool true => "true"
  | .bool false => "false"
  | .int n => toString n
  | .decimal isNegative digits places => decimalText isNegative digits places
  | .str s => quote s
  | .arr items => "[" ++ String.intercalate "," (itemTexts items) ++ "]"
  | .obj fields => "\x7b" ++ String.intercalate "," (fieldTexts fields) ++ "\x7d"

def itemTexts : List Json → List String
  | [] => []
  | v :: rest => text v :: itemTexts rest

def fieldTexts : List (String × Json) → List String
  | [] => []
  | (k, v) :: rest => (quote k ++ ":" ++ text v) :: fieldTexts rest

end

def insertField (field : String × Json) : List (String × Json) → List (String × Json)
  | [] => [field]
  | f :: rest => if field.1 < f.1 then field :: f :: rest else f :: insertField field rest

mutual

/-- The same value with the fields of every object in the order of their names. -/
def sorted : Json → Json
  | .arr items => .arr (sortedItems items)
  | .obj fields => .obj (sortedFields fields)
  | v => v

def sortedItems : List Json → List Json
  | [] => []
  | v :: rest => sorted v :: sortedItems rest

def sortedFields : List (String × Json) → List (String × Json)
  | [] => []
  | (k, v) :: rest => insertField (k, sorted v) (sortedFields rest)

end

end JobEngine.Json
