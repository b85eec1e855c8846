import JobEngine.Data.Assoc
import JobEngine.Data.Tree
import JobEngine.Json.Basic
import JobEngine.Log.Filter
/-! The log of a process. Lines are written inside spans, and a span may carry its own level: lines
inside it pass down to that level even when the base filter would drop them. The innermost span that
carries a level decides, and it never takes away what the base lets through. -/

namespace JobEngine

namespace Log

/-- A field's value. A text that was rendered from something else is `shown`. -/
inductive Value where
  | str (s : String)
  | shown (s : String)
  | int (n : Int)
  | bool (b : Bool)
  deriving DecidableEq, Inhabited

def Value.json : Value → Json
  | .str s | .shown s => .str s
  | .int n => .int n
  | .bool b => .bool b

abbrev Fields := List (String × Value)

/-- The field by which a span carries its own level. -/
def overrideField : String := "log_level_override"

def trimQuotes (s : String) : String :=
  String.ofList
    (((s.toList.dropWhile (· == '"')).reverse.dropWhile (· == '"')).reverse)

/-- The level that a recorded value names; a rendered text may stand in quotes. -/
def Value.level? : Value → Option Level
  | .str s => Level.ofText? s
  | .shown s => Level.ofText? (trimQuotes s)
  | _ => none

/-- What one call records in a field: of several values the last. -/
def Fields.get? (values : Fields) (field : String) : Option Value :=
  (values.filter (·.1 == field)).getLast?.map (·.2)

/-- The level that one call records. -/
def Fields.level? (values : Fields) : Option Level := (values.get? overrideField).bind Value.level?

/-- What the spans that are made in one place have in common. -/
structure SpanKind where
  name : String
  origin : String
  level : Level := .info
  /-- The fields that values can be recorded in. -/
  declared : List String

namespace SpanKind

def declares (k : SpanKind) : Bool := k.declared.contains overrideField

/-- The values that there are fields for. -/
def known (k : SpanKind) (values : Fields) : Fields :=
  values.filter fun f => k.declared.contains f.1

@[simp] theorem get?_known (k : SpanKind) (values : Fields) (field : String) :
    (k.known values).get? field =
      if k.declared.contains field then values.get? field else none := by
  unfold known Fields.get?
  rw [List.filter_filter]
  split
  next h =>
    congr 3
    funext f
    by_cases hf : f.1 = field <;> simp_all
  next h =>
    have hnone : (values.filter fun f => f.1 == field && k.declared.contains f.1) = [] := by
      refine List.filter_eq_nil_iff.mpr fun f _ hf => h ?_
      simp only [Bool.and_eq_true, beq_iff_eq] at hf
      exact hf.1 ▸ hf.2
    rw [hnone]
    rfl

@[simp] theorem level?_known (k : SpanKind) (values : Fields) :
    (k.known values).level? = if k.declares then values.level? else none := by
  unfold Fields.level? declares
  rw [get?_known]
  split <;> rfl

end SpanKind

/-- A span: its kind, its recorded fields, and the level in force in it on its own account. -/
structure Span extends SpanKind where
  fields : Assoc String Value := []
  override : Option Level := none
  override_declared : override.isSome → toSpanKind.declares := by simp

/-- Records the values of one call. A value of the level field that names no level leaves the level
as it was. -/
def Span.record (s : Span) (values : Fields) : Span :=
  { s with
    fields := (s.known values).foldl (fun m f => m.put f.1 f.2) s.fields
    override := (s.known values).level?.or s.override
    override_declared := by
      rw [s.level?_known]
      cases h : s.declares with
      | true => simp
      | false => simpa [h] using s.override_declared }

/-- A span that is about to be opened: the values that it is made with, and the calls that record
more in it before it is entered. -/
structure NewSpan where
  kind : SpanKind
  values : Fields := []
  later : List Fields := []

/-- A span that has been made, and whether the filter lets it be seen. -/
structure OpenSpan where
  span : Span
  visible : Bool

structure Line where
  level : Level
  message : String
  fields : Fields
  /-- The visible spans around the line, outermost first. -/
  spans : List Span

/-- A span that is entered once more stays where it was entered first. -/
def entries : List Nat → List Nat
  | [] => []
  | n :: outer => if outer.contains n then entries outer else n :: entries outer

end Log

structure Journal where
  base : Log.Base := Filter.off
  spans : Tree Log.OpenSpan := []
  /-- The spans that have been entered, the last one first. -/
  entered : List Nat := []
  /-- The number of the next span. -/
  next : Nat := 0
  /-- The lines that passed, newest first. -/
  lines : List Log.Line := []

namespace Journal

/-- The innermost span that has been entered. -/
def innermost? (j : Journal) : Option Nat := (Log.entries j.entered).head?

def isSeen (j : Journal) (n : Nat) : Bool := (j.spans.get? n).any (·.visible)

/-- The innermost span that has been entered and is seen. -/
def current? (j : Journal) : Option Nat := (Log.entries j.entered).find? j.isSeen

/-- The visible spans around a line, innermost first. -/
def around (j : Journal) : List Log.OpenSpan :=
  (j.spans.path j.current?).items.filter (·.visible)

/-- The level that the innermost visible span with one has set. -/
def inForce (j : Journal) : Option Level := j.around.findSome? (·.span.override)

/-- Whether something passes: the base lets it, or the level in force does. It is a line with the
given fields, or a span when there are none given. -/
def passes (j : Journal) (origin : String) (fields : Option (List String)) (level : Level) : Bool :=
  j.base.lets origin fields level || j.inForce.any fun limit => level.within limit

/-- A span is seen when it passes as a line would, or when it declares the level field. -/
def sees (j : Journal) (k : Log.SpanKind) : Bool :=
  k.declares || j.passes k.origin none k.level

/-- Makes a span that lies in another one. -/
def create (j : Journal) (k : Log.SpanKind) (outer : Option Nat) (values : Log.Fields) : Journal :=
  let span : Log.Span := { k with }
  { j with
    spans := ⟨j.next, outer, span.record values, j.sees k⟩ :: j.spans
    next := j.next + 1 }

def record (j : Journal) (n : Nat) (values : Log.Fields) : Journal :=
  { j with spans := j.spans.modify n fun s => { s with span := s.span.record values } }

def enter (j : Journal) (n : Nat) : Journal := { j with entered := n :: j.entered }

def exit (j : Journal) (n : Nat) : Journal := { j with entered := j.entered.erase n }

/-- Gives a span up that nobody is in. -/
def close (j : Journal) (n : Nat) : Journal :=
  if j.entered.contains n then j else { j with spans := j.spans.drop n }

/-- Makes a span inside the innermost one and enters it. -/
def enterNew (j : Journal) (s : Log.NewSpan) : Journal :=
  let made := j.create s.kind j.innermost? s.values
  (s.later.foldl (fun made values => made.record j.next values) made).enter j.next

/-- Leaves the innermost span for good. -/
def leave (j : Journal) : Journal :=
  match j.innermost? with
  | none => j
  | some n => (j.exit n).close n

def write (j : Journal) (origin : String) (level : Level) (message : String)
    (fields : Log.Fields) : Journal :=
  if j.passes origin (some ("message" :: fields.map (·.1))) level then
    { j with lines := ⟨level, message, fields, (j.around.map (·.span)).reverse⟩ :: j.lines }
  else j

end Journal

end JobEngine
