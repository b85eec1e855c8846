import JobEngine.Data.Uuid
import JobEngine.Text.Blank
/-! The names of tenants and of jobs. Both are text with something in it; a tenant's key is kept
without its surrounding blanks, a job's key as it was given. -/

namespace JobEngine

inductive ValueError where
  | validation (reason : String)
  | invalidId (reason : String)
  deriving DecidableEq

def ValueError.message : ValueError → String
  | .validation reason => "validation failed: " ++ reason
  | .invalidId reason => "invalid identifier: " ++ reason

structure TenantKey where
  text : String
  deriving DecidableEq

structure JobKey where
  text : String
  deriving DecidableEq, Inhabited

def TenantKey.ofText (s : String) : Except ValueError TenantKey :=
  if Text.trim s = "" then .error (.invalidId "TenantKey: empty key") else .ok ⟨Text.trim s⟩

def JobKey.ofText (s : String) : Except ValueError JobKey :=
  if Text.trim s = "" then .error (.invalidId "JobKey: empty key") else .ok ⟨s⟩

/-- A fresh key that starts with a readable word. -/
def JobKey.generate (word : String) (id : Uuid) : JobKey := ⟨word ++ "-" ++ id.text⟩

/-- Reads an identifier of the named kind. -/
def Uuid.ofText (kind s : String) : Except ValueError Uuid :=
  match Uuid.ofText? s with
  | some id => .ok id
  | none => .error (.invalidId kind)

theorem TenantKey.ofText_eq_ok_iff {s : String} {k : TenantKey} :
    TenantKey.ofText s = .ok k ↔ Text.trim s ≠ "" ∧ k.text = Text.trim s := by
  unfold TenantKey.ofText
  split
  next h => simp [h]
  next h =>
    cases k
    simp only [Except.ok.injEq, TenantKey.mk.injEq, ne_eq, h, not_false_eq_true, true_and]
    exact eq_comm

/-- A text is the key of a job, as it is, unless it is blank. -/
theorem JobKey.ofText_cases (s : String) :
    (Text.isBlank s ∧ ∃ e, ofText s = .error e) ∨ (¬Text.isBlank s ∧ ofText s = .ok ⟨s⟩) := by
  unfold ofText
  rw [← Text.trim_eq_empty_iff]
  split
  · next h => exact .inl ⟨h, _, rfl⟩
  · next h => exact .inr ⟨h, rfl⟩

/-- A text is the key of a tenant, when it is trimmed, unless it is blank. -/
theorem TenantKey.ofText_cases (s : String) : (Text.isBlank s ∧ ∃ e, ofText s = .error e) ∨
    (¬Text.isBlank s ∧ ofText s = .ok ⟨Text.trim s⟩) := by
  unfold ofText
  rw [← Text.trim_eq_empty_iff]
  split
  · next h => exact .inl ⟨h, _, rfl⟩
  · next h => exact .inr ⟨h, rfl⟩

end JobEngine
