import JobEngine.Data.Bits
import JobEngine.Log.Filter
import JobEngine.Text.Numeral
import JobEngine.Text.Pattern.Parser
/-! Reading base filters. A directive is a level, or an origin, a span in brackets, fields of it in
braces and a level after an equals sign; commas stand between directives. -/

namespace JobEngine

/-- Why a text is no filter. -/
inductive FilterError where
  | unreadable
  /-- A part would begin or end inside a character. -/
  | brokenCharacter
  deriving DecidableEq

namespace Directive

/-- A level by its number or its name; `off` and 0 let nothing pass. -/
def limitOfText? (s : String) : Option (Option Level) :=
  match Text.readUnsigned (twoTo 64 - 1) s, Text.lowercase s with
  | .ok 0, _ | _, "off" => some none
  | .ok 1, _ | _, "error" => some (some .error)
  | .ok 2, _ | _, "warn" => some (some .warn)
  | .ok 3, _ | _, "info" => some (some .info)
  | .ok 4, _ | _, "debug" => some (some .debug)
  | .ok 5, _ | _, "trace" => some (some .trace)
  | _, _ => none

/-- A text that is being read. Marks are sought where its blanks at both ends are gone, but parts
are cut out of the whole at the bytes where their marks stand, so blanks at the front move every
part. -/
structure Source where
  whole : List Char
  marks : List Char

namespace Source

def ofText (s : String) : Source := ⟨s.toList, Text.trimChars s.toList⟩

def byteCount (cs : List Char) : Nat := cs.foldl (fun bytes c => bytes + c.utf8Size) 0

/-- A text in two parts, of which the first has so many bytes. -/
def splitBytes? : Nat → List Char → Option (List Char × List Char)
  | 0, cs => some ([], cs)
  | _, [] => none
  | bytes, c :: cs =>
    if c.utf8Size ≤ bytes then
      (splitBytes? (bytes - c.utf8Size) cs).map fun parts => (c :: parts.1, parts.2)
    else none

/-- The first of some marks from a place on, and its place. -/
def seek (s : Source) (wanted : List Char) (start : Nat) : Option (Nat × Char) :=
  let place := start + (s.marks.drop start).findIdx wanted.contains
  s.marks[place]?.map (place, ·)

/-- What stands before a place, and from it on. -/
def split (s : Source) (place : Nat) : Except FilterError (List Char × List Char) :=
  match splitBytes? (byteCount (s.marks.take place)) s.whole with
  | some parts => .ok parts
  | none => .error .brokenCharacter

def cut (s : Source) (start stop : Nat) : Except FilterError String := do
  let (before, _) ← s.split start
  let (front, _) ← s.split stop
  return String.ofList (front.drop before.length)

/-- Sets the limit that is written from a place on; when nothing is, there is no bound. -/
def limited (s : Source) (start : Nat) (d : Directive) : Except FilterError Directive := do
  match (← s.split start).2 with
  | [] => return d
  | cs =>
    match limitOfText? (String.ofList cs) with
    | some limit => return { d with limit }
    | none => .error .unreadable

/-- After the span only a limit may follow. -/
def closed (s : Source) (start : Nat) (d : Directive) : Except FilterError Directive :=
  match s.marks[start]? with
  | none => .ok d
  | some '=' => s.limited (start + 1) d
  | some _ => .error .unreadable

def isReadableValue (s : String) : Bool :=
  Text.isNumber s || (Text.Pattern.ofText? s).any (·.isUsable)

/-- A field and, after an equals sign, its value. -/
def withField (text : String) (d : Directive) : Except FilterError Directive :=
  let parts := text.splitOn "="
  let value := parts[1]?
  if value.all isReadableValue then .ok { d with field := parts.head?, value }
  else .error .unreadable

/-- Reads a span, which may go without a name when a field is asked for in braces. -/
def spanned (s : Source) (start : Nat) (d : Directive) : Except FilterError Directive := do
  match s.seek [']', '{'] start with
  | none => .error .unreadable
  | some (i, mark) =>
    let name ← s.cut start i
    if mark = ']' then s.closed (i + 1) { d with span := some name }
    else
      match s.seek ['}'] (i + 1) with
      | none => .error .unreadable
      | some (j, _) =>
        let field ← s.cut (i + 1) j
        if field = "" then throw .unreadable
        let span := if name = "" then none else some name
        let d ← withField field { d with span }
        if s.marks[j + 1]? = some ']' then s.closed (j + 2) d else .error .unreadable

end Source

def isOriginStart (c : Char) : Bool := Text.isWordChar c || c == '_' || c == ':' || c == '-'

/-- Reads `level`, or any of an origin, a span in brackets and a limit after an equals sign, in this
order; without the limit all levels are meant. -/
def ofText (s : String) : Except FilterError Directive := do
  let source := Source.ofText s
  match source.marks with
  | [] => .error .unreadable
  | '[' :: _ => source.spanned 1 {}
  | c :: _ =>
    if !isOriginStart c then throw .unreadable
    match source.seek ['=', '['] 0 with
    | none =>
      match limitOfText? s with
      | some limit => return { limit }
      | none => return { origin := some s }
    | some (i, mark) =>
      let d : Directive := { origin := some (← source.cut 0 i) }
      if mark = '=' then source.limited (i + 1) d else source.spanned (i + 1) d

end Directive

namespace Filter

/-- Directives separated by commas; none at all let nothing pass. -/
def ofText (s : String) : Except FilterError Filter :=
  ((s.splitOn ",").filter (· ≠ "")).mapM Directive.ofText

/-- The base filter of a process: what it was told, or `info` when that is missing or unreadable. A
setting that breaks a character leaves the process without a filter, and it cannot go on. -/
def ofSetting : Option String → Option Filter
  | none => some (level .info)
  | some s =>
    match ofText s with
    | .ok f => some f
    | .error .unreadable => some (level .info)
    | .error .brokenCharacter => none

end Filter

end JobEngine
