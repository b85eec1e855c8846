import JobEngine.Log.Level
/-! Base filters: which lines pass on account of where they come from and how severe they are. A
filter is a list of directives, and of those that concern a line the most particular one decides. A
line is judged by itself, so a directive that asks for a span around it, or for the value of a
field, can be read but never decides. -/

namespace JobEngine

/-- A limit for the lines of one origin, or of every origin; no limit at all lets nothing pass. -/
structure Directive where
  origin : Option String := none
  /-- The span that has to be around a line. -/
  span : Option String := none
  /-- The field that a line has to have. -/
  field : Option String := none
  /-- What the field has to hold: a number, or a text that a pattern fits. -/
  value : Option String := none
  limit : Option Level := some .trace
  deriving DecidableEq

abbrev Filter := List Directive

namespace Directive

def decides (d : Directive) : Bool := d.span.isNone && d.value.isNone

/-- Whether a directive is about what comes from an origin: a line with the given fields, or a span
when there are none given. -/
def concerns (d : Directive) (origin : String) (fields : Option (List String)) : Bool :=
  (d.origin.all fun start => start.toList.isPrefixOf origin.toList) &&
    d.field.all fun field => fields.all (·.contains field)

def rank (d : Directive) : Nat :=
  match d.origin with
  | none => 0
  | some start => start.length + 1

/-- Whether a directive gives way to another one that concerns the same line: the longer origin goes
first, then one that asks for a field. -/
def yieldsTo (d other : Directive) : Bool :=
  d.rank < other.rank ||
    d.rank = other.rank && match d.field, other.field with
      | none, _ => true
      | some _, none => false
      | some a, some b => a ≤ b

def lets (d : Directive) (level : Level) : Bool :=
  match d.limit with
  | none => false
  | some limit => level.within limit

end Directive

namespace Filter

def level (l : Level) : Filter := [{ limit := some l }]

def off : Filter := [{ limit := none }]

/-- The directive that decides on a line or a span: of equals the last one. -/
def deciding (f : Filter) (origin : String) (fields : Option (List String)) : Option Directive :=
  f.foldl (fun best d =>
    if d.decides && d.concerns origin fields then
      match best with
      | none => some d
      | some b => if b.yieldsTo d then some d else some b
    else best) none

def lets (f : Filter) (origin : String) (fields : Option (List String)) (level : Level) : Bool :=
  match f.deciding origin fields with
  | none => false
  | some d => d.lets level

end Filter

/-- What decides about lines and spans where nothing else does: about a line with the given fields,
or about a span when there are none given. -/
structure Log.Base where
  lets : (origin : String) → (fields : Option (List String)) → Level → Bool

instance : Coe Filter Log.Base := ⟨fun f => ⟨f.lets⟩⟩

end JobEngine
