import JobEngine.Data.Assoc
/-! Routing kinds to handlers. A pattern is an exact kind, a category such as `pools.*`, or `*`; the
exact kind comes first, then the longest category, then `*`. -/

namespace JobEngine

abbrev Registry (η : Type) := Assoc String η

namespace Registry

/-- Adds a handler; a pattern that is there already gets the new one. -/
def register (r : Registry η) (pattern : String) (handler : η) : Registry η := r.put pattern handler

/-- The part of a category before its `.*`. -/
def category? (pattern : String) : Option (List Char) :=
  match pattern.toList.reverse with
  | '*' :: '.' :: rest => some rest.reverse
  | _ => none

/-- The length of the category of a pattern, when the kind lies in it. -/
def categoryLength? (kind pattern : String) : Option Nat :=
  (category? pattern).bind fun start =>
    if (start ++ ['.']).isPrefixOf kind.toList then some start.length else none

/-- Of two handlers found by category, the one with the longer category, or the later one. -/
def better (best : Option (Nat × η)) (found : Nat × η) : Option (Nat × η) :=
  match best with
  | none => some found
  | some b => if b.1 ≤ found.1 then some found else some b

def byCategory (r : Registry η) (kind : String) : Option η :=
  (r.foldl (fun best e =>
    match categoryLength? kind e.1 with
    | none => best
    | some n => better best (n, e.2)) none).map (·.2)

def resolve (r : Registry η) (kind : String) : Option η :=
  ((r.get? kind).or (r.byCategory kind)).or (r.get? "*")

end Registry

end JobEngine
