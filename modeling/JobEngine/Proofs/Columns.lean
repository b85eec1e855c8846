import Mathlib.Data.List.DropRight
import JobEngine.Database.Ledger
/-! Rows as columns and back. What is written is what is read, but for the times, which are cut to
whole microseconds; and columns are ordered as the rows they stand for. -/

namespace JobEngine

@[simp] theorem Text.trimChars_trimChars (cs : List Char) :
    trimChars (trimChars cs) = trimChars cs := by
  have hfront : (trimChars cs).dropWhile isBlankChar = trimChars cs := by
    refine List.dropWhile_eq_self_iff.mpr fun hpos => ?_
    have hstart : trimChars cs <+: cs.dropWhile isBlankChar := List.rdropWhile_prefix _ _
    have hkept : 0 < (cs.dropWhile isBlankChar).length := hpos.trans_le hstart.length_le
    have hhead := List.dropWhile_get_zero_not isBlankChar cs hkept
    rwa [hstart.getElem hpos]
  change ((trimChars cs).dropWhile isBlankChar).rdropWhile isBlankChar = _
  rw [hfront]
  exact List.rdropWhile_idempotent isBlankChar (cs.dropWhile isBlankChar)

@[simp] theorem Text.trim_trim (s : String) : trim (trim s) = trim s := by
  unfold trim
  simp

theorem TenantKey.ofText_text {s : String} {k : TenantKey} (h : ofText s = .ok k) :
    ofText k.text = .ok k := by
  obtain ⟨hne, htext⟩ := ofText_eq_ok_iff.mp h
  rw [ofText_eq_ok_iff, htext, Text.trim_trim]
  exact ⟨hne, rfl⟩

theorem JobKey.ofText_text {s : String} {k : JobKey} (h : ofText s = .ok k) :
    ofText k.text = .ok k := by
  unfold ofText at h ⊢
  split at h
  · cases h
  next hne =>
    cases h
    exact if_neg hne

theorem Instant.stored_storable (t : Instant) : t.stored.IsStorable := by
  unfold stored IsStorable
  dsimp only
  split
  · dsimp only
    omega
  · dsimp only
    omega

@[simp] theorem Instant.stored_stored (t : Instant) : t.stored.stored = t.stored :=
  stored_eq_self t.stored_storable

@[simp] theorem Stamp.stored_stored (t : Stamp) :
    t.stored.stored = t.stored := Instant.stored_stored _

namespace JobStatus

def truncated (s : JobStatus) : JobStatus :=
  { s with
    createdAt := s.createdAt.stored
    updatedAt := s.updatedAt.stored
    startedAt := s.startedAt.map fun t => t.stored
    finishedAt := s.finishedAt.map fun t => t.stored }

@[simp] theorem truncated_truncated (s : JobStatus) : s.truncated.truncated = s.truncated := by
  cases s
  simp only [truncated, Stamp.stored_ofInstant, Stamp.stored_stored, Option.map_map,
    Function.comp_def]

/-- A table has a place for the row, if not for all of its times. -/
structure Writable (s : JobStatus) : Prop where
  key : ∃ text, JobKey.ofText text = .ok s.id
  owner : ∀ o ∈ s.owner, ∃ text, TenantKey.ofText text = .ok o
  attempts : s.attempts ≤ StatusRow.maxAttempts

theorem Writable.truncated {s : JobStatus} (h : s.Writable) : s.truncated.Writable :=
  ⟨h.key, h.owner, h.attempts⟩

end JobStatus

namespace StatusRow

def columns (s : JobStatus) : StatusRow where
  id := s.id.text
  kind := s.kind
  state := s.state.name
  triggered := s.triggered
  owner := s.owner.map (·.text)
  result := s.result
  attempts := s.attempts
  createdAt := s.createdAt.stored
  updatedAt := s.updatedAt.stored
  startedAt := s.startedAt.map Stamp.stored
  finishedAt := s.finishedAt.map Stamp.stored

@[simp] theorem columns_truncated (s : JobStatus) : columns s.truncated = columns s := by
  simp only [columns, JobStatus.truncated, Stamp.stored_ofInstant, Stamp.stored_stored,
    Option.map_map, Function.comp_def]

theorem ofStatus_eq {s : JobStatus} (h : s.Writable) : ofStatus s = .ok (columns s) := by
  unfold ofStatus attemptsColumn
  rw [if_pos h.attempts]
  rfl

theorem ofColumn_owner {owner : Option TenantKey}
    (h : ∀ o ∈ owner, ∃ text, TenantKey.ofText text = .ok o) :
    ofColumn TenantKey.ofText (owner.map (·.text)) = .ok owner := by
  cases owner with
  | none => rfl
  | some o =>
    obtain ⟨text, htext⟩ := h o rfl
    simp only [Option.map_some, ofColumn, TenantKey.ofText_text htext, Except.map]

theorem toStatus_columns {s : JobStatus} (h : s.Writable) :
    (columns s).toStatus = .ok s.truncated := by
  obtain ⟨text, hkey⟩ := h.key
  have hattempts : ¬ (s.attempts : Int) < 0 := by omega
  unfold toStatus columns
  simp only [JobKey.ofText_text hkey, JobState.ofName_name, ofColumn_owner h.owner, hattempts,
    Except.mapError,
    bind, Except.bind, ↓reduceIte, Option.map_map, Int.toNat_natCast]
  rfl

theorem listedBefore_columns {a b : JobStatus} (ha : a.createdAt = a.createdAt.stored)
    (hb : b.createdAt = b.createdAt.stored) :
    (columns a).listedBefore (columns b) = a.listedBefore b := by
  have hlt : a.createdAt < b.createdAt ↔ a.createdAt.stored < b.createdAt.stored := by
    rw [← Stamp.ofInstant_lt, ← ha, ← hb]
  have heq : a.createdAt = b.createdAt ↔ a.createdAt.stored = b.createdAt.stored := by
    constructor
    · exact fun h => congrArg Stamp.stored h
    · intro h
      rw [ha, hb, h]
  unfold listedBefore JobStatus.listedBefore columns
  simp only [hlt, heq]

end StatusRow

end JobEngine
