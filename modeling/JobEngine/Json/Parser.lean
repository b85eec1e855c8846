import JobEngine.Json.Number
/-! Reading JSON text. Of fields with one name the last counts. -/

namespace JobEngine.Json

namespace Parser

def skipBlanks (cs : List Char) : List Char :=
  cs.dropWhile fun c => c == ' ' || c == '\n' || c == '\r' || c == '\t'

def hexValue? (c : Char) : Option Nat :=
  if Number.isDigit c then some (c.toNat - '0'.toNat)
  else if 'a' ≤ c ∧ c ≤ 'f' then some (c.toNat - 'a'.toNat + 10)
  else if 'A' ≤ c ∧ c ≤ 'F' then some (c.toNat - 'A'.toNat + 10)
  else none

def escape? : Char → Option Nat
  | 'n' => some 10
  | 'r' => some 13
  | 't' => some 9
  | 'b' => some 8
  | 'f' => some 12
  | '"' => some 34
  | '\\' => some 92
  | '/' => some 47
  | _ => none

/-- What stands between quotes, and the rest after the closing one. -/
def readQuoted : List Char → Option (List Char × List Char)
  | [] => none
  | '"' :: rest => some ([], rest)
  | '\\' :: c :: rest => (readQuoted rest).map fun r => ('\\' :: c :: r.1, r.2)
  | c :: rest => (readQuoted rest).map fun r => (c :: r.1, r.2)

/-- The code units that quoted characters stand for. -/
def codeUnits : List Char → Option (List Nat)
  | [] => some []
  | '\\' :: 'u' :: a :: b :: c :: d :: rest => do
    let unit ← [a, b, c, d].foldlM (fun n c => (hexValue? c).map (n * 16 + ·)) 0
    return unit :: (← codeUnits rest)
  | '\\' :: c :: rest => do return (← escape? c) :: (← codeUnits rest)
  | c :: rest => if c.toNat < 32 then none else (codeUnits rest).map (c.toNat :: ·)

/-- The characters of code units, where two surrogates make one character. -/
def characters : List Nat → Option (List Char)
  | [] => some []
  | [unit] => if h : unit.isValidChar then some [Char.ofNatAux unit h] else none
  | high :: low :: rest =>
    if 0xD800 ≤ high ∧ high < 0xDC00 ∧ 0xDC00 ≤ low ∧ low < 0xE000 then
      (characters rest).map
        (Char.ofNat (0x10000 + (high - 0xD800) * 0x400 + (low - 0xDC00)) :: ·)
    else if h : high.isValidChar then (characters (low :: rest)).map (Char.ofNatAux high h :: ·)
    else none

/-- A text whose opening quote has been read. -/
def readText (cs : List Char) : Option (String × List Char) := do
  let (quoted, cs) ← readQuoted cs
  return (String.ofList (← characters (← codeUnits quoted)), cs)

/-- Of fields with one name only the last. -/
def lastFields (fields : List (String × Json)) : List (String × Json) :=
  fields.foldr (fun f later => if later.any (·.1 == f.1) then later else f :: later) []

mutual

/-- A value at the front. The number bounds how deep values lie in one another and how many stand
side by side; a text never has more of them than characters. -/
def readValue : Nat → List Char → Option (Json × List Char)
  | 0, _ => none
  | n + 1, cs =>
    match skipBlanks cs with
    | 'n' :: 'u' :: 'l' :: 'l' :: rest => some (.null, rest)
    | 't' :: 'r' :: 'u' :: 'e' :: rest => some (.bool true, rest)
    | 'f' :: 'a' :: 'l' :: 's' :: 'e' :: rest => some (.bool false, rest)
    | '"' :: rest => (readText rest).map fun r => (.str r.1, r.2)
    | '[' :: rest =>
      match skipBlanks rest with
      | ']' :: rest => some (.arr [], rest)
      | rest => (readItems n rest).map fun r => (.arr r.1, r.2)
    | '{' :: rest =>
      match skipBlanks rest with
      | '}' :: rest => some (.obj [], rest)
      | rest => (readFields n rest).map fun r => (.obj (lastFields r.1), r.2)
    | cs => Number.read cs

def readItems : Nat → List Char → Option (List Json × List Char)
  | 0, _ => none
  | n + 1, cs => do
    let (v, cs) ← readValue n cs
    match skipBlanks cs with
    | ']' :: rest => return ([v], rest)
    | ',' :: rest =>
      let (items, rest) ← readItems n rest
      return (v :: items, rest)
    | _ => none

def readFields : Nat → List Char → Option (List (String × Json) × List Char)
  | 0, _ => none
  | n + 1, cs =>
    match skipBlanks cs with
    | '"' :: rest => do
      let (name, cs) ← readText rest
      match skipBlanks cs with
      | ':' :: rest =>
        let (v, cs) ← readValue n rest
        match skipBlanks cs with
        | '}' :: rest => return ([(name, v)], rest)
        | ',' :: rest =>
          let (fields, rest) ← readFields n rest
          return ((name, v) :: fields, rest)
        | _ => none
      | _ => none
    | _ => none

end

end Parser

/-- The value that a text is, with nothing but blanks around it. -/
def ofText? (s : String) : Option Json := do
  let cs := s.toList
  let (v, rest) ← Parser.readValue (cs.length + 1) cs
  if (Parser.skipBlanks rest).isEmpty then some v else none

end JobEngine.Json
