import Mathlib.Data.List.Nodup
import JobEngine.Proofs.Bookkeeping
/-! The reports of a ledger in memory. A list holds the rows that were asked for, each once, by age
and key; the counts are the lengths of lists; and neither depends on the order in which the rows
are kept. -/

namespace JobEngine

theorem Assoc.get?_of_mem {α : Type u} {β : Type v} [DecidableEq α] {m : Assoc α β} {e : α × β}
    (distinct : m.keys.Nodup) (he : e ∈ m) : m.get? e.1 = some e.2 := by
  induction m with
  | nil => cases he
  | cons x rest ih =>
    obtain ⟨hfresh, hrest⟩ := List.nodup_cons.mp distinct
    rcases List.mem_cons.mp he with rfl | he
    · simp only [get?, ↓reduceIte]
    · have hne : x.1 ≠ e.1 := fun heq => hfresh (List.mem_map.mpr ⟨e, he, heq.symm⟩)
      simp only [get?, hne, ↓reduceIte]
      exact ih hrest he

namespace Stamp

variable {a b c : Stamp}

@[simp] theorem rank_inj : a.rank = b.rank ↔ a = b := by
  refine ⟨fun h => ?_, congrArg rank⟩
  obtain ⟨⟨n, _, _⟩, leap, _⟩ := a
  obtain ⟨⟨m, _, _⟩, leap', _⟩ := b
  unfold rank Instant.seconds Instant.subsecond nanosPerSecond at h
  -- the second of a stamp is its rank over two seconds, the leap what is left over one
  obtain ⟨rfl, rfl⟩ : leap = leap' ∧ n = m := by
    cases leap <;> cases leap' <;> simp only [Bool.false_eq_true, ↓reduceIte] at h
    · exact ⟨rfl, by omega⟩
    · omega
    · omega
    · exact ⟨rfl, by omega⟩
  rfl

theorem lt_trans (hab : a < b) (hbc : b < c) : a < c := Int.lt_trans hab hbc

private theorem lt_or_eq_or_gt (a b : Stamp) : a < b ∨ a = b ∨ b < a := by
  rcases Int.lt_trichotomy a.rank b.rank with h | h | h
  · exact .inl h
  · exact .inr (.inl (rank_inj.mp h))
  · exact .inr (.inr h)

end Stamp

namespace JobStatus

variable {a b c : JobStatus}

def Precedes (a b : JobStatus) : Prop :=
  a.createdAt < b.createdAt ∨ a.createdAt = b.createdAt ∧ a.id.text < b.id.text

instance (a b : JobStatus) : Decidable (a.Precedes b) :=
  inferInstanceAs (Decidable (_ ∨ _))

theorem Precedes.ne (h : a.Precedes b) : a ≠ b := by
  rintro rfl
  rcases h with h | ⟨-, h⟩
  · exact Int.lt_irrefl _ h
  · exact String.lt_irrefl _ h

theorem Precedes.trans (hab : a.Precedes b) (hbc : b.Precedes c) : a.Precedes c := by
  rcases hab with hab | ⟨hab, hid⟩
  · rcases hbc with hbc | ⟨hbc, -⟩
    · exact .inl (Stamp.lt_trans hab hbc)
    · exact .inl (hbc ▸ hab)
  · rcases hbc with hbc | ⟨hbc, hid'⟩
    · exact .inl (hab ▸ hbc)
    · exact .inr ⟨hab.trans hbc, String.lt_trans hid hid'⟩

private theorem precedes_or_precedes (hid : a.id ≠ b.id) : a.Precedes b ∨ b.Precedes a := by
  rcases Stamp.lt_or_eq_or_gt a.createdAt b.createdAt with h | h | h
  · exact .inl (.inl h)
  · have htext : a.id.text ≠ b.id.text := fun heq => hid (congrArg JobKey.mk heq)
    rcases String.le_total a.id.text b.id.text with hle | hle
    · exact .inl (.inr ⟨h, Std.lt_of_le_of_ne hle htext⟩)
    · exact .inr (.inr ⟨h.symm, Std.lt_of_le_of_ne hle htext.symm⟩)
  · exact .inr (.inl h)

theorem listedBefore_iff :
    a.listedBefore b ↔ a.Precedes b ∨ a.createdAt = b.createdAt ∧ a.id.text = b.id.text := by
  have htext : a.id.text ≤ b.id.text ↔ a.id.text < b.id.text ∨ a.id.text = b.id.text :=
    Std.le_iff_lt_or_eq
  unfold listedBefore Precedes
  simp only [Bool.or_eq_true, Bool.and_eq_true, decide_eq_true_eq, htext, and_or_left, or_assoc]

theorem listedBefore_trans (hab : a.listedBefore b) (hbc : b.listedBefore c) :
    a.listedBefore c := by
  rw [listedBefore_iff] at hab hbc ⊢
  rcases hab with hab | ⟨hage, hid⟩
  · rcases hbc with hbc | ⟨hage, hid⟩
    · exact .inl (hab.trans hbc)
    · unfold Precedes at hab ⊢
      exact .inl (hage ▸ hid ▸ hab)
  · unfold Precedes at hbc ⊢
    rw [hage, hid]
    exact hbc

private theorem listedBefore_total (a b : JobStatus) : a.listedBefore b || b.listedBefore a := by
  rw [Bool.or_eq_true, listedBefore_iff, listedBefore_iff]
  by_cases hid : a.id = b.id
  · rcases Stamp.lt_or_eq_or_gt a.createdAt b.createdAt with h | h | h
    · exact .inl (.inl (.inl h))
    · exact .inl (.inr ⟨h, congrArg JobKey.text hid⟩)
    · exact .inr (.inl (.inl h))
  · exact (precedes_or_precedes hid).imp .inl .inl

end JobStatus

namespace StatusQuery

variable {q : StatusQuery} {row : JobStatus} {rows order : List JobStatus}

def whole (q : StatusQuery) : StatusQuery := { q with limit := none }

/-- The row is asked for. A row without an owner is not, when there is an owner to match. -/
structure Wants (q : StatusQuery) (row : JobStatus) : Prop where
  owner : ∀ o ∈ q.owner, row.owner = some o
  state : ∀ s ∈ q.state, row.state = s
  kind : ∀ k ∈ q.kind, row.kind = k

theorem isMatch_iff : q.isMatch row ↔ q.Wants row := by
  have hparts : q.Wants row ↔ (∀ o ∈ q.owner, row.owner = some o) ∧
      (∀ s ∈ q.state, row.state = s) ∧ ∀ k ∈ q.kind, row.kind = k :=
    ⟨fun h => ⟨h.owner, h.state, h.kind⟩, fun h => ⟨h.1, h.2.1, h.2.2⟩⟩
  rw [hparts]
  unfold isMatch meets
  rw [Bool.and_eq_true, Bool.and_eq_true, and_assoc]
  refine and_congr ?_ (and_congr ?_ ?_)
  · cases q.owner <;> simp
  · cases q.state <;> simp [eq_comm]
  · cases q.kind <;> simp [eq_comm]

theorem select_whole (q : StatusQuery) (rows : List JobStatus) :
    q.whole.select rows = (rows.filter q.isMatch).mergeSort JobStatus.listedBefore := rfl

theorem select_of_none (h : q.limit = none) : q.select rows = q.whole.select rows := by
  unfold select
  rw [h]
  rfl

theorem select_of_some {n : Nat} (h : q.limit = some n) :
    q.select rows = (q.whole.select rows).take n := by
  unfold select
  rw [h]
  rfl

private theorem mem_select : row ∈ q.whole.select rows ↔ row ∈ rows ∧ q.Wants row := by
  rw [select_whole, List.mem_mergeSort, List.mem_filter, isMatch_iff]

theorem select_pairwise (distinct : (rows.map (·.id)).Nodup) :
    (q.whole.select rows).Pairwise JobStatus.Precedes := by
  rw [select_whole]
  have hsorted : ((rows.filter q.isMatch).mergeSort JobStatus.listedBefore).Pairwise
      (JobStatus.listedBefore · ·) := by
    apply List.pairwise_mergeSort
    · exact fun _ _ _ => JobStatus.listedBefore_trans
    · exact JobStatus.listedBefore_total
  have hperm := List.mergeSort_perm (rows.filter q.isMatch) JobStatus.listedBefore
  have hkeys : (((rows.filter q.isMatch).mergeSort JobStatus.listedBefore).map (·.id)).Nodup := by
    refine (hperm.map JobStatus.id).nodup_iff.mpr ?_
    exact distinct.sublist (List.filter_sublist.map JobStatus.id)
  refine List.Pairwise.imp₂ (fun a b hbefore hne => ?_) hsorted (List.pairwise_map.mp hkeys)
  exact (JobStatus.listedBefore_iff.mp hbefore).resolve_right
    fun heq => hne (congrArg JobKey.mk heq.2)

theorem select_perm (distinct : (rows.map (·.id)).Nodup) (horder : order.Perm rows) :
    q.select order = q.select rows := by
  have hwhole : q.whole.select order = q.whole.select rows := by
    refine List.Perm.eq_of_pairwise (fun a b _ _ hab hba => ?_)
      (select_pairwise ((horder.map _).nodup_iff.mpr distinct)) (select_pairwise distinct) ?_
    · exact absurd rfl (hab.trans hba).ne
    · exact (List.mergeSort_perm _ _).trans
        ((horder.filter _).trans (List.mergeSort_perm _ _).symm)
  cases hlimit : q.limit with
  | none => rw [select_of_none hlimit, select_of_none hlimit, hwhole]
  | some n => rw [select_of_some hlimit, select_of_some hlimit, hwhole]

private theorem length_select : (q.whole.select rows).length = rows.countP q.isMatch := by
  rw [select_whole, List.length_mergeSort, List.countP_eq_length_filter]

end StatusQuery

namespace LedgerStats

variable {owner : Option TenantKey}

private theorem ext_get {s t : LedgerStats} (h : ∀ state, s.get state = t.get state) : s = t := by
  cases s
  cases t
  rw [mk.injEq]
  exact ⟨h .created, h .pending, h .running, h .finished, h .failed, h .cancelled⟩

theorem get_foldl (rows : List JobStatus) (s : LedgerStats) (state : JobState) :
    (rows.foldl (fun s row => s.add row.state 1) s).get state =
      s.get state + rows.countP fun row => row.state = state := by
  induction rows generalizing s with
  | nil => rfl
  | cons row rest ih =>
    rw [List.foldl_cons, ih, get_add, List.countP_cons]
    by_cases hstate : row.state = state
    · simp only [hstate, ↓reduceIte, decide_true]
      omega
    · simp only [hstate, ↓reduceIte, decide_false, Bool.false_eq_true]
      omega

theorem get_ofRows (owner : Option TenantKey) (rows : List JobStatus) (state : JobState) :
    (ofRows owner rows).get state =
      rows.countP (StatusQuery.isMatch { owner, state := some state }) := by
  have hzero : ({} : LedgerStats).get state = 0 := by cases state <;> rfl
  unfold ofRows
  rw [get_foldl, hzero, Nat.zero_add, List.countP_filter]
  refine congrArg (rows.countP ·) (funext fun row => ?_)
  simp only [StatusQuery.isMatch, StatusQuery.meets, Bool.and_true]
  exact Bool.and_comm _ _

@[simp] private theorem total_add (s : LedgerStats) (state : JobState) (n : Nat) :
    (s.add state n).total = s.total + n := by
  unfold total
  cases state <;> (dsimp only [add]; omega)

private theorem total_foldl (rows : List JobStatus) (s : LedgerStats) :
    (rows.foldl (fun s row => s.add row.state 1) s).total = s.total + rows.length := by
  induction rows generalizing s with
  | nil => rfl
  | cons row rest ih =>
    rw [List.foldl_cons, ih, total_add, List.length_cons]
    omega

theorem total_ofRows (owner : Option TenantKey) (rows : List JobStatus) :
    (ofRows owner rows).total = rows.countP (StatusQuery.isMatch { owner }) := by
  unfold ofRows
  rw [total_foldl, List.countP_eq_length_filter]
  exact Nat.zero_add _

private theorem ofRows_perm {rows order : List JobStatus} (horder : order.Perm rows) :
    ofRows owner order = ofRows owner rows := by
  refine ext_get fun state => ?_
  rw [get_ofRows, get_ofRows, horder.countP_eq]

end LedgerStats

namespace MemoryLedger

variable {l : MemoryLedger}

theorem Sound.distinct_rows (sound : l.Sound) : (l.rows.values.map (·.id)).Nodup := by
  have hids : l.rows.values.map (·.id) = l.rows.keys := by
    unfold Assoc.values Assoc.keys
    rw [List.map_map]
    exact List.map_congr_left sound.own
  rw [hids]
  exact sound.distinct

theorem Sound.mem_rows (sound : l.Sound) {row : JobStatus} :
    row ∈ l.rows.values ↔ l.get? row.id = some row := by
  constructor
  · intro hrow
    obtain ⟨e, he, rfl⟩ := List.mem_map.mp hrow
    have hid : e.2.id = e.1 := sound.own e he
    rw [hid]
    exact Assoc.get?_of_mem sound.distinct he
  · exact fun hrow => List.mem_map.mpr ⟨_, Assoc.mem_of_get? hrow, rfl⟩

/-- What the answer to a question has to be: the rows that are asked for, strictly by age and key
and so each of them once, up to the bound, in whatever order the ledger keeps its rows. -/
structure Listed (l : MemoryLedger) (q : StatusQuery) : Prop where
  rows : ∀ row, row ∈ l.list q.whole ↔ l.get? row.id = some row ∧ q.Wants row
  once : (l.list q.whole).Nodup
  ordered : (l.list q.whole).Pairwise JobStatus.Precedes
  unbounded : q.limit = none → l.list q = l.list q.whole
  bounded : ∀ n, q.limit = some n → l.list q = (l.list q.whole).take n
  unordered : ∀ order, order.Perm l.rows.values → q.select order = l.list q

/-- What the counts of an owner, or of all rows, have to be: the lengths of lists, in whatever order
the ledger keeps its rows. -/
structure Counted (l : MemoryLedger) (owner : Option TenantKey) : Prop where
  states : ∀ state, (l.stats owner).get state = (l.list { owner, state := some state }).length
  total : (l.stats owner).total = (l.list { owner }).length
  everything : owner = none → (l.stats owner).total = l.size
  unordered : ∀ order, order.Perm l.rows.values → LedgerStats.ofRows owner order = l.stats owner

/-- The lists and the counts of a ledger with one row for a key, as every ledger in memory has,
agree with its rows and with each other. -/
theorem lists_and_counts_agree (sound : l.Sound) (q : StatusQuery) (owner : Option TenantKey) :
    l.Listed q ∧ l.Counted owner := by
  have ordered : (l.list q.whole).Pairwise JobStatus.Precedes :=
    StatusQuery.select_pairwise sound.distinct_rows
  constructor
  · refine ⟨fun row => ?_, ordered.imp fun h => h.ne, ordered,
      fun h => StatusQuery.select_of_none h, fun n h => StatusQuery.select_of_some h,
      fun order horder => ?_⟩
    · rw [← sound.mem_rows]
      exact StatusQuery.mem_select
    · exact StatusQuery.select_perm sound.distinct_rows horder
  · refine ⟨fun state => ?_, ?_, fun h => ?_, fun order horder => LedgerStats.ofRows_perm horder⟩
    · exact (LedgerStats.get_ofRows owner _ state).trans StatusQuery.length_select.symm
    · exact (LedgerStats.total_ofRows owner _).trans StatusQuery.length_select.symm
    · subst h
      refine (LedgerStats.total_ofRows none _).trans ?_
      rw [List.countP_eq_length (p := StatusQuery.isMatch {}) |>.mpr fun _ _ => rfl]
      exact List.length_map _

/-- Three rows came youngest first, two of them at one time and one of these with an owner. They are
listed by age and key, and the two without an owner are counted but not matched to it. -/
theorem mixed_rows_listed :
    let report (key : String) (created : Instant) (owner : Option TenantKey) : JobStatus :=
      { JobStatus.initial { key := ⟨key⟩, kind := "report" } true created with owner }
    let late := report "a" (Instant.epoch.plus (Duration.ofSeconds 1)) none
    let second := report "c" .epoch (some ⟨"acme"⟩)
    let first := report "b" .epoch none
    let l := ((({} : MemoryLedger).put late).put second).put first
    l.Sound ∧ l.list { limit := some 2 } = [first, second] ∧
      (l.list { owner := some ⟨"acme"⟩ }).length = 1 ∧ (l.list {}).length = 3 := by
  intro report late second first l
  have sound : l.Sound := ((sound_empty.put late).put second).put first
  have all := lists_and_counts_agree sound { limit := some 2 } none
  have owned := lists_and_counts_agree sound {} (some ⟨"acme"⟩)
  have hsorted : [first, second, late].mergeSort JobStatus.listedBefore = [first, second, late] :=
    List.mergeSort_of_pairwise (by decide)
  have hlisted : StatusQuery.select { limit := some 2 } [first, second, late] = [first, second] :=
    congrArg (List.take 2) hsorted
  exact ⟨sound, (all.1.unordered [first, second, late] (by decide)).symm.trans hlisted,
    owned.2.total.symm.trans (by decide), all.2.total.symm.trans (by decide)⟩

end MemoryLedger

end JobEngine
