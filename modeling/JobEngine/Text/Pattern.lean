/-! Search patterns, and which of them can be used. A pattern is about the characters of a text, or
in parts about its ASCII bytes alone; no match ever cuts a character. There are no tables of the
kinds and the cases of all characters, so a pattern can neither ask for kinds of them nor ignore
their case. -/

namespace JobEngine.Text

/-- What a pattern can switch on or off for the parts that follow. -/
inductive PatternFlag where
  | ignoreCase
  | manyLines
  | dotAll
  | swapGreed
  | unicode
  | crlf
  | verbose
  deriving DecidableEq

abbrev PatternFlags := List (PatternFlag × Bool)

/-- A character that stands for itself. -/
structure PatternChar where
  char : Char
  /-- It was written as a byte, by two hexadecimal digits. -/
  isByte : Bool := false

/-- A set of characters. -/
inductive CharSet where
  | nothing
  | char (c : PatternChar)
  | range (first last : PatternChar)
  /-- A set of ASCII characters with a name, such as `[:alpha:]`. -/
  | named (isNegated : Bool)
  /-- Digits, blanks or word characters, such as `\d`. -/
  | kind (isNegated : Bool)
  | brackets (isNegated : Bool) (s : CharSet)
  | union (ss : List CharSet)
  /-- What two sets have in common, or what only one of them has. -/
  | combined (a b : CharSet)

/-- Sets side by side in brackets. -/
def CharSet.ofList : List CharSet → CharSet
  | [] => .nothing
  | [s] => s
  | ss => .union ss

inductive Pattern where
  | empty
  | flags (fs : PatternFlags)
  | char (c : PatternChar)
  | anyChar
  /-- The start or the end of a text or a line. -/
  | edge
  /-- The start or the end of a word, or a place that is neither. -/
  | wordEdge
  | set (s : CharSet)
  | group (fs : PatternFlags) (p : Pattern)
  | repeated (p : Pattern)
  | inOrder (ps : List Pattern)
  | choice (ps : List Pattern)

namespace Pattern

def ofOrder : List Pattern → Pattern
  | [] => .empty
  | [p] => p
  | ps => .inOrder ps

def ofChoice : List Pattern → Pattern
  | [] => .empty
  | [p] => p
  | ps => .choice ps

/-! How deep parts lie in one another -/

mutual

def setDepth : CharSet → Nat
  | .brackets _ s => setDepth s + 1
  | .union ss => setsDepth ss + 1
  | .combined a b => max (setDepth a) (setDepth b) + 1
  | _ => 0

def setsDepth : List CharSet → Nat
  | [] => 0
  | s :: rest => max (setDepth s) (setsDepth rest)

end

mutual

def depth : Pattern → Nat
  | .set s => setDepth s
  | .group _ p | .repeated p => p.depth + 1
  | .inOrder ps | .choice ps => depthAll ps + 1
  | _ => 0

def depthAll : List Pattern → Nat
  | [] => 0
  | p :: rest => max p.depth (depthAll rest)

end

def greatestDepth : Nat := 250

/-! What can be used -/

/-- The flags in force that bear on what can be used. -/
structure Mode where
  /-- The pattern is about all characters, and not about ASCII bytes. -/
  isUnicode : Bool := true
  ignoresCase : Bool := false

def Mode.set (m : Mode) (fs : PatternFlags) : Mode :=
  fs.foldl (fun m f =>
    match f with
    | (.unicode, isSet) => { m with isUnicode := isSet }
    | (.ignoreCase, isSet) => { m with ignoresCase := isSet }
    | _ => m) m

def isAscii (c : PatternChar) : Bool := c.char.toNat < 128

/-- A byte beyond ASCII is only a part of a character. -/
def isUsableChar (m : Mode) (c : PatternChar) : Bool :=
  if m.isUnicode then !m.ignoresCase else !c.isByte || isAscii c

def isUsableMember (m : Mode) (c : PatternChar) : Bool :=
  if m.isUnicode then !m.ignoresCase else isAscii c

mutual

/-- Among the bytes no set may be negated, since it would have those beyond ASCII. -/
def isUsableSet (m : Mode) : CharSet → Bool
  | .nothing => true
  | .char c => isUsableMember m c
  | .range first last => isUsableMember m first && isUsableMember m last
  | .named isNegated => if m.isUnicode then !m.ignoresCase else !isNegated
  | .kind isNegated => !m.isUnicode && !isNegated
  | .brackets isNegated s => (m.isUnicode || !isNegated) && isUsableSet m s
  | .union ss => areUsableSets m ss
  | .combined a b => isUsableSet m a && isUsableSet m b

def areUsableSets (m : Mode) : List CharSet → Bool
  | [] => true
  | s :: rest => isUsableSet m s && areUsableSets m rest

end

mutual

/-- The flags in force after a part; there are none if it cannot be used. -/
def modeAfter? : Pattern → Mode → Option Mode
  | .empty, m | .edge, m => some m
  | .flags fs, m => some (m.set fs)
  | .char c, m => if isUsableChar m c then some m else none
  | .anyChar, m => if m.isUnicode then some m else none
  | .wordEdge, m => if m.isUnicode then none else some m
  | .set s, m => if isUsableSet m s then some m else none
  | .group fs p, m => (p.modeAfter? (m.set fs)).map fun _ => m
  | .repeated p, m => p.modeAfter? m
  | .inOrder ps, m | .choice ps, m => modeAfterAll? ps m

def modeAfterAll? : List Pattern → Mode → Option Mode
  | [], m => some m
  | p :: rest, m => (p.modeAfter? m).bind (modeAfterAll? rest)

end

def isUsable (p : Pattern) : Bool := p.depth ≤ greatestDepth && (p.modeAfter? {}).isSome

end Pattern

end JobEngine.Text
