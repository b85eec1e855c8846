import JobEngine.Data.Bits
/-! Identifiers of 128 bits and their text. The canonical text is hyphenated lower-case hexadecimal;
reading also takes capitals, the digits without hyphens, braces, and the URN form. -/

namespace JobEngine

structure Uuid where
  value : Nat
  lt : value < twoTo 128

namespace Uuid

instance : DecidableEq Uuid := fun a b =>
  if h : a.value = b.value then isTrue (by cases a; cases b; simp_all)
  else isFalse fun hab => h (hab ▸ rfl)

def ofNat (n : Nat) : Uuid := ⟨n % twoTo 128, Nat.mod_lt _ (by decide)⟩

instance : Inhabited Uuid := ⟨ofNat 0⟩

def hexDigit (n : Nat) : Char :=
  if n < 10 then Char.ofNat ('0'.toNat + n) else Char.ofNat ('a'.toNat + (n - 10))

def hexValue? (c : Char) : Option Nat :=
  if '0' ≤ c ∧ c ≤ '9' then some (c.toNat - '0'.toNat)
  else if 'a' ≤ c ∧ c ≤ 'f' then some (c.toNat - 'a'.toNat + 10)
  else if 'A' ≤ c ∧ c ≤ 'F' then some (c.toNat - 'A'.toNat + 10)
  else none

/-- The last `width` hexadecimal digits of a number, most significant first. -/
def hexDigits : (width : Nat) → (n : Nat) → List Char
  | 0, _ => []
  | width + 1, n => hexDigits width (n / 16) ++ [hexDigit (n % 16)]

def readHex : Nat → List Char → Option Nat
  | acc, [] => some acc
  | acc, c :: rest => (hexValue? c).bind fun d => readHex (acc * 16 + d) rest

/-- Lengths of the digit groups that the hyphens separate. -/
def groups : List Nat := [8, 4, 4, 4, 12]

/-- Puts a hyphen between consecutive groups of the given lengths. -/
def hyphenate : List Nat → List Char → List Char
  | [], cs => cs
  | [_], cs => cs
  | n :: rest, cs => cs.take n ++ '-' :: hyphenate rest (cs.drop n)

/-- Removes the hyphens of `hyphenate`, or fails when one is not in its place. -/
def dehyphenate? : List Nat → List Char → Option (List Char)
  | [], cs => some cs
  | [_], cs => some cs
  | n :: rest, cs =>
    match cs.drop n with
    | '-' :: tail => (dehyphenate? rest tail).map (cs.take n ++ ·)
    | _ => none

def text (u : Uuid) : String := String.ofList (hyphenate groups (hexDigits 32 u.value))

def readPlain? (cs : List Char) : Option Uuid :=
  if cs.length = 32 then (readHex 0 cs).map ofNat else none

def readHyphenated? (cs : List Char) : Option Uuid :=
  if cs.length = 36 then (dehyphenate? groups cs).bind readPlain? else none

/-- What stands before the digits in the URN form, in any case. -/
def urnStart : List Char := "urn:uuid:".toList

/-- What a wrapped or bare text holds, when it has one of the accepted outer shapes. -/
def unwrap (cs : List Char) : List Char :=
  match cs with
  | '{' :: rest => if cs.length = 38 ∧ rest.getLast? = some '}' then rest.dropLast else cs
  | _ => if urnStart.isPrefixOf (cs.map Char.toLower) then cs.drop urnStart.length else cs

def ofText? (s : String) : Option Uuid :=
  let cs := s.toList
  if cs.length = 32 then readPlain? cs else readHyphenated? (unwrap cs)

def version (u : Uuid) : Nat := u.value / twoTo 76 % 16

/-- A time-ordered identifier (version 7): milliseconds first, then a serial number that keeps
identifiers of one source in the order in which they were made. -/
def timeOrdered (millis serial : Nat) : Uuid :=
  let high := serial / twoTo 62 % twoTo 12
  let low := serial % twoTo 62
  ofNat (millis % twoTo 48 * twoTo 80 + 7 * twoTo 76 + high * twoTo 64 + 2 * twoTo 62 + low)

end Uuid

end JobEngine
