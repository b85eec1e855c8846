import JobEngine.Text.Blank
import JobEngine.Text.Pattern
import JobEngine.Text.Word
/-! Reading search patterns. A pattern is read where no closing brace can be in it, so what is
written in braces, as the number of repetitions, is never complete. -/

namespace JobEngine.Text.Pattern

/-- What is left of a text, and what has been read so far that bears on it. -/
structure ParserState where
  rest : List Char
  /-- Blanks and comments do not count. -/
  isVerbose : Bool := false
  names : List (List Char) := []

abbrev Parser := StateT ParserState Option

namespace Parser

def withoutBlanks : Bool → List Char → List Char
  | _, [] => []
  | true, c :: rest => withoutBlanks (c != '\n') rest
  | false, c :: rest =>
    if isBlankChar c then withoutBlanks false rest
    else if c = '#' then withoutBlanks true rest
    else c :: rest

def skipBlanks : Parser Unit :=
  modify fun s => if s.isVerbose then { s with rest := withoutBlanks false s.rest } else s

def rest : Parser (List Char) := return (← get).rest

def setRest (cs : List Char) : Parser Unit := modify fun s => { s with rest := cs }

/-- The next character, which is taken. -/
def next : Parser Char := do
  match ← rest with
  | [] => failure
  | c :: cs =>
    setRest cs
    return c

/-- Takes the next character, behind which something must follow. -/
def pass : Parser Unit := do
  let _ ← next
  skipBlanks
  if (← rest).isEmpty then failure

/-! Escapes -/

def hexValue? (c : Char) : Option Nat :=
  if '0' ≤ c ∧ c ≤ '9' then some (c.toNat - '0'.toNat)
  else if 'a' ≤ c ∧ c ≤ 'f' then some (c.toNat - 'a'.toNat + 10)
  else if 'A' ≤ c ∧ c ≤ 'F' then some (c.toNat - 'A'.toNat + 10)
  else none

/-- A number of so many hexadecimal digits, after one that has been read. -/
def readHex : Nat → Nat → Parser Nat
  | 0, n => do
    skipBlanks
    return n
  | digits + 1, n => do
    skipBlanks
    let digit ← hexValue? (← next)
    readHex digits (n * 16 + digit)

def readHexChar (digits : Nat) : Parser Char := do
  let n ← readHex digits 0
  if h : n.isValidChar then return Char.ofNatAux n h else failure

/-- The characters that have a letter of their own. -/
def control? : Char → Option Char
  | 'a' => some '\x07'
  | 'f' => some '\x0C'
  | 't' => some '\t'
  | 'n' => some '\n'
  | 'r' => some '\r'
  | 'v' => some '\x0B'
  | _ => none

/-- What is written after a backslash. ASCII marks stand for themselves. -/
def readEscape : Parser Pattern := do
  match ← next with
  | 'x' => return .char ⟨← readHexChar 2, true⟩
  | 'u' => return .char { char := ← readHexChar 4 }
  | 'U' => return .char { char := ← readHexChar 8 }
  | 'd' | 's' | 'w' => return .set (.kind false)
  | 'D' | 'S' | 'W' => return .set (.kind true)
  | 'A' | 'z' => return .edge
  | 'b' | 'B' | '<' | '>' => return .wordEdge
  | c =>
    if let some control := control? c then return .char { char := control }
    if c.toNat < 128 && !c.isAlphanum then return .char { char := c }
    failure

/-! Sets -/

def setNames : List String :=
  ["alnum", "alpha", "ascii", "blank", "cntrl", "digit", "graph", "lower", "print", "punct",
    "space", "upper", "word", "xdigit"]

/-- A set with a name, in colons, and what follows it. -/
def namedSet? : List Char → Option (CharSet × List Char)
  | '[' :: ':' :: cs =>
    let (isNegated, cs) := match cs with
      | '^' :: cs => (true, cs)
      | cs => (false, cs)
    let name := cs.takeWhile (· ≠ ':')
    match cs.drop name.length with
    | ':' :: ']' :: cs =>
      if setNames.contains (String.ofList name) then some (.named isNegated, cs) else none
    | _ => none
  | _ => none

/-- A character, or what a backslash stands for if it is a set or a character. -/
def readSetPart : Parser CharSet := do
  match ← next with
  | '\\' =>
    match ← readEscape with
    | .char l => return .char l
    | .set s => return s
    | _ => failure
  | c => return .char { char := c }

/-- The character after the next one; of a comment, what stands first in it. -/
def peek (s : ParserState) : Option Char :=
  let cs := s.rest.drop 1
  if s.isVerbose then
    match cs.dropWhile isBlankChar with
    | [] => cs.head?
    | '#' :: comment =>
      match comment.dropWhile isBlankChar with
      | [] => cs.head?
      | c :: _ => some c
    | c :: _ => some c
  else cs.head?

/-- A part of a set, or a range from one character up to another. A hyphen at the end, or before
another one, makes no range. -/
def readRange : Parser CharSet := do
  let first ← readSetPart
  skipBlanks
  match ← rest with
  | [] => failure
  | '-' :: _ =>
    if [some ']', some '-'].contains (peek (← get)) then return first
    pass
    match first, ← readSetPart with
    | .char first, .char last =>
      if first.char ≤ last.char then return .range first last else failure
    | _, _ => failure
  | _ => return first

/-- The hyphens at the front of a set, after those that have been read. -/
def readHyphens : Nat → List CharSet → Parser (List CharSet)
  | 0, _ => failure
  | fuel + 1, read => do
    match ← rest with
    | '-' :: _ =>
      pass
      readHyphens fuel (.char { char := '-' } :: read)
    | _ => return read

/-- The opening of a set: whether it is negated, and the hyphens or the bracket at its front, which
stand for themselves. -/
def readOpening : Parser (Bool × List CharSet) := do
  pass
  let isNegated := (← rest).head? == some '^'
  if isNegated then pass
  let hyphens ← readHyphens ((← rest).length + 1) []
  match ← rest, hyphens with
  | ']' :: _, [] =>
    pass
    return (isNegated, [.char { char := ']' }])
  | _, _ => return (isNegated, hyphens)

def combine : Option CharSet → CharSet → CharSet
  | none, s => s
  | some before, s => .combined before s

/-- What is in brackets, up to the closing one, after what has been read: the sets before an
operator, and those since, last one first. The number bounds how many parts follow. -/
def readSetParts : Nat → Option CharSet → List CharSet → Parser CharSet
  | 0, _, _ => failure
  | fuel + 1, before, read => do
    skipBlanks
    let cs ← rest
    match cs with
    | [] => failure
    | ']' :: cs =>
      setRest cs
      return combine before (.ofList read.reverse)
    | '&' :: '&' :: cs | '-' :: '-' :: cs | '~' :: '~' :: cs =>
      setRest cs
      readSetParts fuel (some (combine before (.ofList read.reverse))) []
    | '[' :: _ =>
      match namedSet? cs with
      | some (s, cs) =>
        setRest cs
        readSetParts fuel before (s :: read)
      | none =>
        let (isNegated, front) ← readOpening
        let s ← readSetParts fuel none front
        readSetParts fuel before (.brackets isNegated s :: read)
    | _ =>
      let s ← readRange
      readSetParts fuel before (s :: read)

def readSet : Parser CharSet := do
  let (isNegated, front) ← readOpening
  return .brackets isNegated (← readSetParts ((← rest).length + 1) none front)

/-! Groups -/

def flag? : Char → Option PatternFlag
  | 'i' => some .ignoreCase
  | 'm' => some .manyLines
  | 's' => some .dotAll
  | 'U' => some .swapGreed
  | 'u' => some .unicode
  | 'R' => some .crlf
  | 'x' => some .verbose
  | _ => none

/-- Flags up to a colon or the end of the group, which is left. Each is given once, those after a
hyphen are switched off, and a hyphen has a flag behind it. -/
def readFlags (read : PatternFlags) (isNegated : Bool) : List Char →
    Option (PatternFlags × List Char)
  | [] => none
  | cs@(':' :: _) | cs@(')' :: _) => some (read, cs)
  | '-' :: cs =>
    match isNegated, cs with
    | true, _ | _, ':' :: _ | _, ')' :: _ => none
    | _, _ => readFlags read true cs
  | c :: cs =>
    match flag? c with
    | none => none
    | some flag =>
      if read.any (·.1 == flag) then none
      else readFlags ((flag, !isNegated) :: read) isNegated cs

/-- The name of a group up to the closing angle bracket. -/
def readName : Parser Unit := do
  let cs ← rest
  let name := cs.takeWhile (· ≠ '>')
  let isFit := match name with
    | [] => false
    | c :: more =>
      (c == '_' || isLetterChar c) &&
        more.all fun c => ['_', '.', '[', ']'].contains c || isWordChar c
  if cs.length = name.length || !isFit || (← get).names.contains name then failure
  modify fun s =>
    { s with rest := s.rest.drop (name.length + 1), names := name :: s.names }

/-- What an opening parenthesis begins: flags for what follows, or a group with flags. -/
inductive Opened where
  | flags (fs : PatternFlags)
  | group (fs : PatternFlags)

/-- Reads the opening of a group. Looking around a place is not known. -/
def readGroup : Parser Opened := do
  let _ ← next
  skipBlanks
  match ← rest with
  | '?' :: 'P' :: '<' :: cs =>
    setRest cs
    readName
    return .group []
  | '?' :: '<' :: cs =>
    setRest cs
    readName
    return .group []
  | '?' :: cs =>
    let (fs, cs) ← readFlags [] false cs
    setRest (cs.drop 1)
    if cs.head? = some ':' then return .group fs
    if fs.isEmpty then failure
    return .flags fs
  | _ => return .group []

def setVerbose (isVerbose : Bool) : Parser Unit := modify fun s => { s with isVerbose }

def setFlags (fs : PatternFlags) : Parser Unit := do
  if let some isVerbose := fs.lookup .verbose then setVerbose isVerbose

/-- What `?`, `*` or `+` stands behind, repeated; flags are nothing to repeat. -/
def repeatLast : List Pattern → Option (List Pattern)
  | [] | .flags _ :: _ => none
  | p :: read => some (.repeated p :: read)

/-- Alternatives up to the end of the text or the group, after what has been read: the alternatives
before, and the parts of the current one, both last one first. The number bounds how many parts
follow. -/
def readParts : Nat → List Pattern → List Pattern → Parser Pattern
  | 0, _, _ => failure
  | fuel + 1, before, read => do
    skipBlanks
    match ← rest with
    | [] | ')' :: _ => return .ofChoice (.ofOrder read.reverse :: before).reverse
    | '|' :: cs =>
      setRest cs
      readParts fuel (.ofOrder read.reverse :: before) []
    | '(' :: _ =>
      let outside := (← get).isVerbose
      match ← readGroup with
      | .flags fs =>
        setFlags fs
        readParts fuel before (.flags fs :: read)
      | .group fs =>
        setFlags fs
        let p ← readParts fuel [] []
        if (← rest).isEmpty then failure
        setRest ((← rest).drop 1)
        setVerbose outside
        readParts fuel before (.group fs p :: read)
    | '[' :: _ =>
      let s ← readSet
      readParts fuel before (.set s :: read)
    | '?' :: cs | '*' :: cs | '+' :: cs =>
      setRest (if cs.head? = some '?' then cs.drop 1 else cs)
      readParts fuel before (← repeatLast read)
    | '{' :: _ => failure
    | '\\' :: cs =>
      setRest cs
      let p ← readEscape
      readParts fuel before (p :: read)
    | c :: cs =>
      setRest cs
      let p := match c with
        | '.' => .anyChar
        | '^' | '$' => .edge
        | c => .char { char := c }
      readParts fuel before (p :: read)

end Parser

/-- The pattern that a text is. -/
def ofText? (s : String) : Option Pattern :=
  let cs := s.toList
  match (Parser.readParts (cs.length + 1) [] []).run { rest := cs } with
  | some (p, { rest := [], .. }) => some p
  | _ => none

end JobEngine.Text.Pattern
