import Mathlib.Data.List.Forall2
import JobEngine.Proofs.Bookkeeping
import JobEngine.Proofs.Table
/-! Two ledgers agree when they give the same answers and hold the same rows, but for times that
were read off the clock while a call lasted. -/

namespace JobEngine

open StatusLedger (Command Response Exchange)

variable {past later : List (Exchange × Exchange)}

namespace StatusLedger.Exchange

def Reads (e : Exchange) (now : Instant) : Prop := e.since ≤ now ∧ now ≤ e.upto

/-- A time that was read off the clock in the course of the call, or what a database keeps of it. -/
def Stamps (e : Exchange) (t : Stamp) : Prop :=
  ∃ now, e.Reads now ∧ (t = Stamp.ofInstant now ∨ t = Stamp.ofInstant now.stored)

end StatusLedger.Exchange

namespace Stamp

def Agree (past : List (Exchange × Exchange)) (a b : Stamp) : Prop :=
  a = b ∨ ∃ e ∈ past, e.1.Stamps a ∧ e.2.Stamps b

theorem Agree.refl (t : Stamp) : Agree past t t := .inl rfl

theorem Agree.mono {a b : Stamp} (h : Agree past a b) (hsub : past ⊆ later) : Agree later a b :=
  h.imp_right fun ⟨e, he, hstamps⟩ => ⟨e, hsub he, hstamps⟩

end Stamp

namespace JobStatus

/-- The rows are the same, but for times that agree. -/
structure Agree (past : List (Exchange × Exchange)) (a b : JobStatus) : Prop where
  columns : b = { a with
    updatedAt := b.updatedAt, startedAt := b.startedAt, finishedAt := b.finishedAt }
  updatedAt : a.updatedAt.Agree past b.updatedAt
  startedAt : Option.Rel (Stamp.Agree past) a.startedAt b.startedAt
  finishedAt : Option.Rel (Stamp.Agree past) a.finishedAt b.finishedAt

theorem optionAgree_refl (t : Option Stamp) : Option.Rel (Stamp.Agree past) t t := by
  cases t with
  | none => exact .none
  | some t => exact .some (.refl t)

private theorem optionAgree_mono {s t : Option Stamp} (h : Option.Rel (Stamp.Agree past) s t)
    (hsub : past ⊆ later) : Option.Rel (Stamp.Agree later) s t := by
  cases h with
  | none => exact .none
  | some h => exact .some (h.mono hsub)

namespace Agree

variable {a b : JobStatus}

theorem refl (s : JobStatus) : Agree past s s :=
  ⟨rfl, .refl _, optionAgree_refl _, optionAgree_refl _⟩

theorem mono (h : Agree past a b) (hsub : past ⊆ later) : Agree later a b :=
  ⟨h.columns, h.updatedAt.mono hsub, optionAgree_mono h.startedAt hsub,
    optionAgree_mono h.finishedAt hsub⟩

section

variable (h : Agree past a b)

include h

theorem id_eq : b.id = a.id := by rw [h.columns]

theorem state_eq : b.state = a.state := by rw [h.columns]

private theorem owner_eq : b.owner = a.owner := by rw [h.columns]

private theorem kind_eq : b.kind = a.kind := by rw [h.columns]

theorem createdAt_eq : b.createdAt = a.createdAt := by rw [h.columns]

theorem moved (u : StatusUpdate) {stamp stamp' changed changed' : Stamp}
    (hstamp : stamp.Agree past stamp') (hchanged : changed.Agree past changed') :
    Agree past (u.moved a stamp changed) (u.moved b stamp' changed') where
  columns := by
    rw [h.columns]
    rfl
  updatedAt := hchanged
  startedAt := by
    unfold StatusUpdate.moved
    dsimp only
    split
    · exact .some hstamp
    · exact h.startedAt
  finishedAt := by
    unfold StatusUpdate.moved
    dsimp only
    split
    · exact .none
    · split
      · exact .some hstamp
      · exact h.finishedAt

theorem isMatch_eq (q : StatusQuery) : q.isMatch b = q.isMatch a := by
  unfold StatusQuery.isMatch
  rw [h.owner_eq, h.state_eq, h.kind_eq]

end

private theorem listedBefore_eq {a' b' : JobStatus} (h : Agree past a b) (h' : Agree past a' b') :
    b.listedBefore b' = a.listedBefore a' := by
  unfold listedBefore
  rw [h.createdAt_eq, h.id_eq, h'.createdAt_eq, h'.id_eq]

end Agree

end JobStatus

namespace StatusLedger

inductive Response.Agree (past : List (Exchange × Exchange)) : Response → Response → Prop where
  | done : Agree past .done .done
  | found {a b : Option JobStatus} (h : Option.Rel (JobStatus.Agree past) a b) :
      Agree past (.found a) (.found b)
  | row {a b : JobStatus} (h : JobStatus.Agree past a b) : Agree past (.row a) (.row b)
  | rows {a b : List JobStatus} (h : List.Forall₂ (JobStatus.Agree past) a b) :
      Agree past (.rows a) (.rows b)
  | counts (stats : LedgerStats) : Agree past (.counts stats) (.counts stats)

inductive Exchange.Agree (past : List (Exchange × Exchange)) :
    Except LedgerError Response → Except LedgerError Response → Prop where
  | refused (e : LedgerError) : Agree past (.error e) (.error e)
  | served {a b : Response} (h : Response.Agree past a b) : Agree past (.ok a) (.ok b)

theorem Exchange.Agree.mono {a b : Except LedgerError Response}
    (h : Exchange.Agree past a b) (hsub : past ⊆ later) : Exchange.Agree later a b := by
  cases h with
  | refused e => exact .refused e
  | served h =>
    refine .served ?_
    cases h with
    | done => exact .done
    | found h =>
      cases h with
      | none => exact .found .none
      | some h => exact .found (.some (h.mono hsub))
    | row h => exact .row (h.mono hsub)
    | rows h => exact .rows (h.imp fun _ _ hab => hab.mono hsub)
    | counts stats => exact .counts stats

end StatusLedger

section

variable {α β : Type} {R : α → β → Prop} {as : List α} {bs : List β}

private theorem find_related (h : List.Forall₂ R as bs) {p : α → Bool} {q : β → Bool}
    (hpq : ∀ a b, R a b → p a = q b) : Option.Rel R (as.find? p) (bs.find? q) := by
  induction h with
  | nil => exact .none
  | cons hab _ ih =>
    rw [List.find?_cons, List.find?_cons, hpq _ _ hab]
    split
    · exact .some hab
    · exact ih

private theorem filter_related (h : List.Forall₂ R as bs) {p : α → Bool} {q : β → Bool}
    (hpq : ∀ a b, R a b → p a = q b) : List.Forall₂ R (as.filter p) (bs.filter q) :=
  List.rel_filter (fun a b hab => Bool.eq_iff_iff.mp (hpq a b hab)) h

private theorem exists_pairs (h : List.Forall₂ R as bs) :
    ∃ pairs : List (α × β), (∀ p ∈ pairs, R p.1 p.2) ∧ as = pairs.map (·.1) ∧
      bs = pairs.map (·.2) := by
  induction h with
  | nil => exact ⟨[], nofun, rfl, rfl⟩
  | @cons a b _ _ hab _ ih =>
    obtain ⟨pairs, hpairs, rfl, rfl⟩ := ih
    exact ⟨(a, b) :: pairs, List.forall_mem_cons.mpr ⟨hab, hpairs⟩, rfl, rfl⟩

private theorem related_of_pairs {pairs : List (α × β)} (h : ∀ p ∈ pairs, R p.1 p.2) :
    List.Forall₂ R (pairs.map (·.1)) (pairs.map (·.2)) := by
  rw [List.forall₂_map_left_iff, List.forall₂_map_right_iff, List.forall₂_same]
  exact h

theorem mergeSort_related (h : List.Forall₂ R as bs) {r : α → α → Bool} {s : β → β → Bool}
    (hrs : ∀ a b a' b', R a b → R a' b' → r a a' = s b b') :
    List.Forall₂ R (as.mergeSort r) (bs.mergeSort s) := by
  obtain ⟨pairs, hpairs, rfl, rfl⟩ := exists_pairs h
  let order (p q : α × β) : Bool := r p.1 q.1
  have hleft : (pairs.mergeSort order).map (·.1) = (pairs.map (·.1)).mergeSort r :=
    List.map_mergeSort fun _ _ _ _ => rfl
  have hright : (pairs.mergeSort order).map (·.2) = (pairs.map (·.2)).mergeSort s :=
    List.map_mergeSort fun p hp q hq => hrs _ _ _ _ (hpairs p hp) (hpairs q hq)
  rw [← hleft, ← hright]
  exact related_of_pairs fun p hp => hpairs p (List.mem_mergeSort.mp hp)

end

section

variable {as bs : List JobStatus} (h : List.Forall₂ (JobStatus.Agree past) as bs)

include h

theorem find_agree (key : JobKey) :
    Option.Rel (JobStatus.Agree past) (as.find? (·.id = key)) (bs.find? (·.id = key)) :=
  find_related h fun a b hab => by rw [hab.id_eq]

theorem select_agree (q : StatusQuery) :
    List.Forall₂ (JobStatus.Agree past) (q.select as) (q.select bs) := by
  have hsorted := mergeSort_related (filter_related h fun a b hab => (hab.isMatch_eq q).symm)
    fun a b a' b' hab hab' => (hab.listedBefore_eq hab').symm
  unfold StatusQuery.select
  cases q.limit with
  | none => exact hsorted
  | some n => exact List.forall₂_take n hsorted

theorem ofRows_agree (owner : Option TenantKey) :
    LedgerStats.ofRows owner as = LedgerStats.ofRows owner bs := by
  have hmatching := filter_related (p := StatusQuery.isMatch { owner }) h
    fun a b hab => (hab.isMatch_eq _).symm
  have hcounts : ∀ {as bs : List JobStatus}, List.Forall₂ (JobStatus.Agree past) as bs →
      ∀ s : LedgerStats, as.foldl (fun s row => s.add row.state 1) s =
        bs.foldl (fun s row => s.add row.state 1) s := by
    intro as bs h
    induction h with
    | nil => exact fun _ => rfl
    | cons hab _ ih =>
      intro s
      rw [List.foldl_cons, List.foldl_cons, hab.state_eq]
      exact ih _
  exact hcounts hmatching {}

theorem replace_agree {a b : JobStatus} (hab : JobStatus.Agree past a b) :
    List.Forall₂ (JobStatus.Agree past) (JobStatus.replace as a) (JobStatus.replace bs b) := by
  refine List.rel_map (fun x y hxy => ?_) h
  rw [hxy.id_eq, hab.id_eq]
  split
  · exact hab
  · exact hxy

theorem append_agree {a b : JobStatus} (hab : JobStatus.Agree past a b) :
    List.Forall₂ (JobStatus.Agree past) (as ++ [a]) (bs ++ [b]) :=
  List.rel_append h (.cons hab .nil)

end

end JobEngine
