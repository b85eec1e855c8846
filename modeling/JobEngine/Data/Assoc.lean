/-! Finite maps kept as lists of bindings. A binding that is written again keeps its place, so the
order of a map is the order in which its keys first appeared. Nothing below depends on that order.
-/

namespace JobEngine

abbrev Assoc (α : Type u) (β : Type v) := List (α × β)

namespace Assoc

variable {α : Type u} {β : Type v} [DecidableEq α]

def get? : Assoc α β → α → Option β
  | [], _ => none
  | (k, v) :: rest, a => if k = a then some v else get? rest a

def has (m : Assoc α β) (a : α) : Bool := (get? m a).isSome

def put : Assoc α β → α → β → Assoc α β
  | [], a, b => [(a, b)]
  | (k, v) :: rest, a, b => if k = a then (a, b) :: rest else (k, v) :: put rest a b

def erase : Assoc α β → α → Assoc α β
  | [], _ => []
  | (k, v) :: rest, a => if k = a then erase rest a else (k, v) :: erase rest a

def keys (m : Assoc α β) : List α := m.map (·.1)

def values (m : Assoc α β) : List β := m.map (·.2)

@[simp] theorem get?_nil (a : α) : get? ([] : Assoc α β) a = none := rfl

@[simp] theorem get?_put_self (m : Assoc α β) (a : α) (b : β) : get? (put m a b) a = some b := by
  induction m with
  | nil => simp [put, get?]
  | cons e rest ih => by_cases h : e.1 = a <;> simp [put, get?, h, ih]

theorem get?_put_of_ne (m : Assoc α β) {a k : α} (b : β) (hk : a ≠ k) :
    get? (put m a b) k = get? m k := by
  induction m with
  | nil => simp [put, get?, hk]
  | cons e rest ih =>
    by_cases h : e.1 = a
    · simp [put, get?, h, hk]
    · by_cases hek : e.1 = k <;> simp [put, get?, h, hek, hk.symm, ih]

@[simp] theorem get?_erase_self (m : Assoc α β) (a : α) : get? (erase m a) a = none := by
  induction m with
  | nil => rfl
  | cons e rest ih => by_cases h : e.1 = a <;> simp [erase, get?, h, ih]

theorem get?_erase_of_ne (m : Assoc α β) {a k : α} (hk : a ≠ k) :
    get? (erase m a) k = get? m k := by
  induction m with
  | nil => rfl
  | cons e rest ih =>
    by_cases h : e.1 = a
    · have hek : e.1 ≠ k := fun hh => hk (h ▸ hh)
      simp [erase, get?, h, ih, hk]
    · by_cases hek : e.1 = k <;> simp [erase, get?, h, hek, hk.symm, ih]

end Assoc

end JobEngine
