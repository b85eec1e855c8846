import JobEngine.Json.Text
import JobEngine.Log.Journal
import JobEngine.Text.Quoted
import JobEngine.Time.Rfc3339
/-! The two forms in which a line leaves the process: one JSON object, or readable text. -/

namespace JobEngine

inductive LogFormat where
  | json
  | pretty
  deriving DecidableEq, Inhabited

namespace LogFormat

def name : LogFormat → String
  | .json => "json"
  | .pretty => "pretty"

/-- Readable text on demand, in any case of the word; JSON otherwise. -/
def ofSetting : Option String → LogFormat
  | some s => if Text.lowercase s = "pretty" then .pretty else .json
  | none => .json

end LogFormat

namespace Log

def fieldsJson (fields : Fields) : List (String × Json) := fields.map fun f => (f.1, f.2.json)

/-- A span as an object: its fields, and its name under the given key. -/
def Span.json (nameKey : String) (s : Span) : Json :=
  .obj (fieldsJson s.fields ++ [(nameKey, .str s.name)])

/-- The spans around a line, and the innermost one again, when there are any. -/
def Line.spanFields (l : Line) : List (String × Json) :=
  match l.spans.getLast? with
  | none => []
  | some s => [("span", s.json "name"), ("spans", .arr (l.spans.map (Span.json "name")))]

def Line.json (l : Line) : Json :=
  .obj ([("level", .str l.level.name),
    ("fields", .obj (("message", .str l.message) :: fieldsJson l.fields))] ++ l.spanFields)

def Value.text : Value → String
  | .str s => Text.quoted s
  | .shown s => s
  | .int n => toString n
  | .bool b => toString b

/-- The message and after it each field with its name. -/
def Line.text (l : Line) : String :=
  String.intercalate ", " (l.message :: l.fields.map fun f => f.1 ++ ": " ++ f.2.text)

/-- A line as it leaves the process at the given time. -/
def Line.printed (format : LogFormat) (time : Instant) (l : Line) : String :=
  match format with
  | .json => (Json.obj (("timestamp", .str time.text) :: (l.json.fields?.getD []))).text
  | .pretty => time.text ++ " " ++ l.level.name ++ " " ++ l.text

end Log

end JobEngine
