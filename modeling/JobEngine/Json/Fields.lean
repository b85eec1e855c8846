import JobEngine.Json.Basic
/-! Reading the fields of an object. A field that may be left out may as well be null. -/

namespace JobEngine.Json

/-- A field that has to be there. -/
def need (j : Json) (name : String) (read : Json → Option α) : Option α :=
  (j.field? name).bind read

/-- A field that may be left out. -/
def given (j : Json) (name : String) (read : Json → Option α) : Option (Option α) :=
  match j.field? name with
  | none | some .null => some none
  | some v => (read v).map some

/-- A field that has a value of its own when it is left out. -/
def givenOr (j : Json) (name : String) (read : Json → Option α) (standing : α) : Option α :=
  (j.given name read).map (·.getD standing)

def list? (read : Json → Option α) (j : Json) : Option (List α) := j.items?.bind (·.mapM read)

/-- An object whose values are all texts. -/
def bindings? (j : Json) : Option (List (String × String)) :=
  j.fields?.bind (·.mapM fun e => e.2.text?.map (e.1, ·))

end JobEngine.Json
