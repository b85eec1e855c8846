/-! Reading decimal integers of bounded size. A sign is optional, a minus sign only where negative
numbers are in range; all else must be ASCII digits. The first fault from the left is reported. -/

namespace JobEngine.Text

inductive NumeralError where
  | empty
  | badDigit
  | tooLarge
  | tooSmall
  deriving DecidableEq

def NumeralError.message : NumeralError → String
  | .empty => "cannot parse integer from empty string"
  | .badDigit => "invalid digit found in string"
  | .tooLarge => "number too large to fit in target type"
  | .tooSmall => "number too small to fit in target type"

def digit? (c : Char) : Option Nat :=
  if '0' ≤ c ∧ c ≤ '9' then some (c.toNat - '0'.toNat) else none

/-- Appends the digits to a number that may not pass a bound. -/
def readDigits (bound : Nat) (overflow : NumeralError) : Nat → List Char → Except NumeralError Nat
  | acc, [] => .ok acc
  | acc, c :: rest =>
    match digit? c with
    | none => .error .badDigit
    | some d =>
      if acc * 10 + d ≤ bound then readDigits bound overflow (acc * 10 + d) rest
      else .error overflow

/-- At least one digit, from zero to the bound. -/
def readMagnitude (bound : Nat) (overflow : NumeralError) : List Char → Except NumeralError Nat
  | [] => .error .badDigit
  | cs => readDigits bound overflow 0 cs

def readUnsigned (bound : Nat) (s : String) : Except NumeralError Nat :=
  match s.toList with
  | [] => .error .empty
  | '+' :: rest => readMagnitude bound .tooLarge rest
  | cs => readMagnitude bound .tooLarge cs

/-- From `-below` to `above`. -/
def readSigned (below above : Nat) (s : String) : Except NumeralError Int :=
  match s.toList with
  | [] => .error .empty
  | '-' :: rest => (readMagnitude below .tooSmall rest).map fun n => -(n : Int)
  | '+' :: rest => (readMagnitude above .tooLarge rest).map Int.ofNat
  | cs => (readMagnitude above .tooLarge cs).map Int.ofNat

def withoutSign : List Char → List Char
  | '+' :: rest | '-' :: rest => rest
  | cs => cs

/-- Nothing, or `e` and a whole number. -/
def isExponent : List Char → Bool
  | [] => true
  | 'e' :: rest | 'E' :: rest =>
    let digits := withoutSign rest
    !digits.isEmpty && digits.all Char.isDigit
  | _ => false

/-- Whether a text is a number: digits with an optional sign, point and exponent, an infinity, or
the name of what is no number. -/
def isNumber (s : String) : Bool :=
  let cs := withoutSign s.toList
  let whole := cs.takeWhile Char.isDigit
  let (fraction, rest) := match cs.drop whole.length with
    | '.' :: rest => (rest.takeWhile Char.isDigit, rest.dropWhile Char.isDigit)
    | rest => ([], rest)
  ["inf", "infinity", "nan"].contains (String.ofList (cs.map Char.toLower)) ||
    !(whole.isEmpty && fraction.isEmpty) && isExponent rest

/-- The decimal digits of a number, padded with zeros on the left to a least width. -/
def padded (width n : Nat) : String :=
  let digits := Nat.toDigits 10 n
  String.ofList (List.replicate (width - digits.length) '0' ++ digits)

end JobEngine.Text
