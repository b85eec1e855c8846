import JobEngine.Proofs.Queue
import JobEngine.Time.Stored
/-! What holds of a scheduler, whatever is done with it. Each waiting fire has a job and each job a
handler, and the queue is in order, with a place of its own for each fire. -/

namespace JobEngine

variable {η ν : Type}

theorem QueuedFire.before_iff {a b : QueuedFire} :
    a.before b ↔ a.due.nanos < b.due.nanos ∨ a.due.nanos = b.due.nanos ∧ a.seq < b.seq := by
  have hsame : a.due = b.due ↔ a.due.nanos = b.due.nanos := ⟨congrArg _, Instant.ext_nanos⟩
  unfold QueuedFire.before
  rw [Bool.or_eq_true, Bool.and_eq_true, decide_eq_true_eq, decide_eq_true_eq, decide_eq_true_eq,
    hsame]
  rfl

theorem QueuedFire.before_trans {a b c : QueuedFire} (h : a.before b) (h' : b.before c) :
    a.before c := by
  rw [before_iff] at h h' ⊢
  omega

theorem QueuedFire.before_of_not {a b : QueuedFire} (hseq : a.seq < b.seq) (h : ¬b.before a) :
    a.before b := by
  rw [before_iff] at h ⊢
  omega

namespace Scheduler

variable {s s' : Scheduler η ν} {q : QueuedFire} {waiting : List QueuedFire}

theorem pairwise_place (h : waiting.Pairwise fun a b => a.before b)
    (hseq : ∀ a ∈ waiting, a.seq < q.seq) : (place q waiting).Pairwise fun a b => a.before b := by
  induction waiting with
  | nil => exact List.pairwise_singleton _ q
  | cons a rest ih =>
    obtain ⟨hfirst, hrest⟩ := List.pairwise_cons.mp h
    obtain ⟨ha, hlater⟩ := List.forall_mem_cons.mp hseq
    unfold place
    split
    next hbefore =>
      refine List.pairwise_cons.mpr ⟨?_, h⟩
      exact List.forall_mem_cons.mpr
        ⟨hbefore, fun b hb => QueuedFire.before_trans hbefore (hfirst b hb)⟩
    next hnot =>
      refine List.pairwise_cons.mpr ⟨fun b hb => ?_, ih hrest hlater⟩
      obtain rfl | hb := mem_place.mp hb
      · exact QueuedFire.before_of_not ha hnot
      · exact hfirst b hb

def Idle (s : Scheduler η ν) (now : Instant) : Prop := ∀ due ∈ s.nextDue, now < due

theorem take_of_idle {now : Instant} (idle : s.Idle now) : s.take now = (none, s) := by
  unfold Idle nextDue at idle
  unfold take
  cases hqueue : s.queue with
  | nil => rfl
  | cons q rest =>
    have hdue : now < q.due := by simpa [hqueue] using idle
    simp [hdue]

structure Stocked (s : Scheduler η ν) : Prop where
  stored : ∀ q ∈ s.queue, s.contains q.fire.key
  handled : ∀ key job, s.jobs.get? key = some job → s.hasHandler job.definition.kind

namespace Stocked

theorem store (h : s.Stocked) {key : JobKey} {job : StoredJob}
    (hhandler : s.hasHandler job.definition.kind) : (s.store key job).Stocked where
  stored q hq := contains_store.mpr (.inr (h.stored q hq))
  handled k j hj := by
    rw [jobs_store] at hj
    split at hj
    · cases hj
      exact hhandler
    · exact h.handled k j hj

theorem enqueue (h : s.Stocked) {due : Instant} {fire : PendingFire}
    (hstored : s.contains fire.key) : (s.enqueue due fire).Stocked where
  stored q hq := by
    obtain rfl | hq := mem_enqueue.mp hq
    · exact hstored
    · exact h.stored q hq
  handled := h.handled

theorem drop (h : s.Stocked) {rest : List QueuedFire} (hsub : rest.Sublist s.queue) :
    Stocked { s with queue := rest } where
  stored q hq := h.stored q (hsub.subset hq)
  handled := h.handled

theorem delete (h : s.Stocked) (key : JobKey) : (s.deleteJob key).2.Stocked where
  stored q hq := by
    obtain ⟨hq, hkey⟩ := List.mem_filter.mp hq
    exact contains_deleteJob.mpr ⟨Ne.symm (of_decide_eq_true hkey), h.stored q hq⟩
  handled k job hjob := by
    rw [jobs_deleteJob] at hjob
    split at hjob
    · cases hjob
    · exact h.handled k job hjob

end Stocked

/-- What holds of a scheduler, whatever was done with it. -/
structure Intact (s : Scheduler η ν) : Prop extends Stocked s where
  counted : ∀ q ∈ s.queue, q.seq ≤ s.seq
  ordered : s.queue.Pairwise fun a b => a.before b

namespace Intact

theorem store (h : s.Intact) {key : JobKey} {job : StoredJob}
    (hhandler : s.hasHandler job.definition.kind) : (s.store key job).Intact :=
  { h.toStocked.store hhandler with counted := h.counted, ordered := h.ordered }

theorem enqueue (h : s.Intact) {due : Instant} {fire : PendingFire}
    (hstored : s.contains fire.key) : (s.enqueue due fire).Intact where
  toStocked := h.toStocked.enqueue hstored
  counted q hq := by
    obtain rfl | hq := mem_enqueue.mp hq
    · exact Nat.le_refl _
    · exact Nat.le_succ_of_le (h.counted q hq)
  ordered := pairwise_place h.ordered fun a ha => Nat.lt_succ_of_le (h.counted a ha)

theorem drop (h : s.Intact) {rest : List QueuedFire} (hsub : rest.Sublist s.queue) :
    Intact { s with queue := rest } where
  toStocked := h.toStocked.drop hsub
  counted q hq := h.counted q (hsub.subset hq)
  ordered := h.ordered.sublist hsub

theorem delete (h : s.Intact) (key : JobKey) : (s.deleteJob key).2.Intact where
  toStocked := h.toStocked.delete key
  counted q hq := h.counted q (List.mem_filter.mp hq).1
  ordered := h.ordered.sublist List.filter_sublist

theorem distinct (h : s.Intact) : (s.queue.map fun q => (q.due, q.seq)).Nodup := by
  refine List.pairwise_map.mpr (h.ordered.imp fun hbefore heq => ?_)
  obtain ⟨hdue, hseq⟩ := Prod.mk.inj heq
  rw [QueuedFire.before_iff, hdue, hseq] at hbefore
  omega

theorem idle_iff (h : s.Intact) {now : Instant} : s.Idle now ↔ ∀ q ∈ s.queue, now < q.due := by
  have hordered := h.ordered
  unfold Idle nextDue
  cases hqueue : s.queue with
  | nil => simp
  | cons q rest =>
    rw [hqueue] at hordered
    have hfirst := (List.pairwise_cons.mp hordered).1
    constructor
    · intro hidle
      have hq : now < q.due := hidle q.due rfl
      refine List.forall_mem_cons.mpr ⟨hq, fun b hb => ?_⟩
      have hbefore := QueuedFire.before_iff.mp (hfirst b hb)
      change now.nanos < q.due.nanos at hq
      change now.nanos < b.due.nanos
      omega
    · rintro hlater _ ⟨⟩
      exact hlater q List.mem_cons_self

theorem take_of_due (h : s.Intact) {now : Instant} (due : ¬s.Idle now) :
    ∃ taken, (s.take now).1 = some taken := by
  have hstored := h.stored
  unfold Idle nextDue at due
  unfold take
  cases hqueue : s.queue with
  | nil => simp [hqueue] at due
  | cons q rest =>
    have hdue : ¬now < q.due := by simpa [hqueue] using due
    rw [hqueue] at hstored
    obtain ⟨job, hjob⟩ := Option.isSome_iff_exists.mp (hstored q List.mem_cons_self)
    simp [hdue, hjob]

theorem take_eq_none_iff (h : s.Intact) {now : Instant} :
    (s.take now).1 = none ↔ s.Idle now := by
  constructor
  · intro hnone
    refine Classical.byContradiction fun due => ?_
    obtain ⟨taken, hsome⟩ := h.take_of_due due
    rw [hnone] at hsome
    cases hsome
  · exact fun idle => congrArg Prod.fst (take_of_idle idle)

end Intact

/-- What each use of a scheduler leaves true. -/
structure Invariant (P : Scheduler η ν → Prop) : Prop where
  scheduleJob : ∀ {s s' definition trigger}, P s → s.scheduleJob definition trigger = .ok s' → P s'
  addJob : ∀ {s s' definition replace}, P s → s.addJob definition replace = .ok s' → P s'
  triggerNow : ∀ {s s' key data now}, P s → s.triggerNow key data now = .ok s' → P s'
  addMatcher : ∀ {s s' name key}, P s → s.addMatcher name key = .ok s' → P s'
  addListener : ∀ {s} name listener, P s → P (s.addListener name listener)
  deleteJob : ∀ {s} key, P s → P (s.deleteJob key).2
  take : ∀ {s} now, P s → P (s.take now).2
  afterFire : ∀ {s} fire trigger outcome now, P s →
    P ((s.afterFire fire trigger outcome now).getD s)

theorem Intact.invariant : Invariant (Intact (η := η) (ν := ν)) where
  scheduleJob h hs := by
    obtain ⟨hhandler, -, rfl⟩ := scheduleJob_ok hs
    exact (h.store hhandler).enqueue (contains_store.mpr (.inl rfl))
  addJob h hs := by
    obtain ⟨hhandler, rfl⟩ := addJob_ok hs
    exact h.store hhandler
  triggerNow h hs := by
    obtain ⟨hstored, rfl⟩ := triggerNow_ok hs
    exact h.enqueue hstored
  addMatcher h hs := by
    obtain ⟨matchers, rfl⟩ := addMatcher_ok hs
    exact ⟨⟨h.stored, h.handled⟩, h.counted, h.ordered⟩
  addListener name listener h := ⟨⟨h.stored, h.handled⟩, h.counted, h.ordered⟩
  deleteJob key h := h.delete key
  take now h := by
    unfold Scheduler.take
    split
    · exact h
    next q rest hqueue =>
      split
      · exact h
      · exact h.drop (hqueue ▸ List.sublist_cons_self q rest)
  afterFire fire trigger outcome now h := by
    obtain ⟨heq, -⟩ | ⟨hstored, ⟨due, -, heq⟩ | ⟨slot, -, heq⟩⟩ :=
      Scheduler.afterFire_cases _ fire trigger outcome now
    · exact heq ▸ h
    · exact heq ▸ h.enqueue hstored
    · exact heq ▸ h.enqueue hstored

end Scheduler

end JobEngine
