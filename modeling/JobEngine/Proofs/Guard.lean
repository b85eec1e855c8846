import JobEngine.Listener
import JobEngine.Proofs.Intact
/-! What holds of the jobs in a scheduler. Each is stored under its own key. When all are watched, a
listener is matched to every key that is stored, so that no fire passes it by. -/

namespace JobEngine

namespace Assoc

variable {α : Type u} {β : Type v} {γ : Type w} [DecidableEq α]

private theorem get?_map (m : Assoc α β) (f : β → γ) (a : α) :
    get? (m.map fun e => (e.1, f e.2)) a = (get? m a).map f := by
  induction m with
  | nil => rfl
  | cons e rest ih =>
    by_cases h : e.1 = a
    · simp [get?, h]
    · simp [get?, h, ih]

end Assoc

namespace Scheduler

variable {η ν : Type} {s s' : Scheduler η ν} {status : ν}

def Filed (s : Scheduler η ν) : Prop :=
  ∀ key job, s.jobs.get? key = some job → job.definition.key = key

theorem Filed.store (h : s.Filed) (definition : JobDefinition) (trigger : Option Trigger) :
    (s.store definition.key { definition, trigger }).Filed := by
  intro key job hjob
  rw [jobs_store] at hjob
  split at hjob
  next hkey =>
    cases hjob
    exact hkey
  · exact h key job hjob

theorem Filed.delete (h : s.Filed) (key : JobKey) : (s.deleteJob key).2.Filed := by
  intro k job hjob
  rw [jobs_deleteJob] at hjob
  split at hjob
  · cases hjob
  · exact h k job hjob

theorem Filed.scheduleJob (h : s.Filed) {definition : JobDefinition} {trigger : Trigger}
    (hs : s.scheduleJob definition trigger = .ok s') : s'.Filed := by
  obtain ⟨-, -, rfl⟩ := scheduleJob_ok hs
  exact h.store definition _

theorem Filed.addJob (h : s.Filed) {definition : JobDefinition} {replace : Bool}
    (hs : s.addJob definition replace = .ok s') : s'.Filed := by
  obtain ⟨-, rfl⟩ := addJob_ok hs
  exact h.store definition _

theorem Filed.triggerNow (h : s.Filed) {key : JobKey} {data : TriggerData} {now : Instant}
    (hs : s.triggerNow key data now = .ok s') : s'.Filed := by
  obtain ⟨-, rfl⟩ := triggerNow_ok hs
  exact h

theorem Filed.addMatcher (h : s.Filed) {name : String} {key : JobKey}
    (hs : s.addMatcher name key = .ok s') : s'.Filed := by
  obtain ⟨matchers, rfl⟩ := addMatcher_ok hs
  exact h

theorem Filed.take (h : s.Filed) (now : Instant) : (s.take now).2.Filed := by
  unfold Scheduler.take
  split
  · exact h
  · split <;> exact h

theorem Filed.afterFire (h : s.Filed) (fire : PendingFire) (trigger : Option Trigger)
    (outcome : FireOutcome) (now : Instant) :
    ((s.afterFire fire trigger outcome now).getD s).Filed := by
  obtain ⟨heq, -⟩ | ⟨-, ⟨due, -, heq⟩ | ⟨slot, -, heq⟩⟩ :=
    s.afterFire_cases fire trigger outcome now <;> (rw [heq]; exact h)

/-- The listener of that name is there and sees every stored job; jobs are stored under their own
keys with handlers for their kinds, and only fires of stored jobs wait. -/
structure Guarded (name : String) (status : ν) (s : Scheduler η ν) : Prop where
  listener : (name, status) ∈ s.listeners
  matched : ∀ key, s.contains key → s.listens name key
  filed : s.Filed
  handled : ∀ key job, s.jobs.get? key = some job → s.hasHandler job.definition.kind
  queued : ∀ q ∈ s.queue, s.contains q.fire.key

variable {name : String}

theorem Guarded.stocked (h : Guarded name status s) : s.Stocked := ⟨h.queued, h.handled⟩

theorem Guarded.enqueue (h : Guarded name status s) {due : Instant} {fire : PendingFire}
    (hstored : s.contains fire.key) : Guarded name status (s.enqueue due fire) where
  listener := h.listener
  matched := h.matched
  filed := h.filed
  handled := h.handled
  queued := (h.stocked.enqueue hstored).stored

theorem Guarded.store (h : Guarded name status s) {definition : JobDefinition}
    {trigger : Option Trigger} (hhandler : s.hasHandler definition.kind)
    (hmatched : s.listens name definition.key) :
    Guarded name status (s.store definition.key { definition, trigger }) where
  listener := h.listener
  matched key hkey := by
    obtain rfl | hkey := contains_store.mp hkey
    · exact hmatched
    · exact h.matched key hkey
  filed := h.filed.store definition trigger
  handled := (h.stocked.store hhandler).handled
  queued := (h.stocked.store hhandler).stored

theorem Guarded.withQueue (h : Guarded name status s) {queue : List QueuedFire}
    (hsub : ∀ q ∈ queue, q ∈ s.queue) : Guarded name status { s with queue } :=
  ⟨h.listener, h.matched, h.filed, h.handled, fun q hq => h.queued q (hsub q hq)⟩

private theorem listens_delete {key k : JobKey} (hk : k ≠ key) :
    (s.deleteJob key).2.listens name k = s.listens name k := by
  unfold listens
  rw [show (s.deleteJob key).2.matchers =
    s.matchers.map fun m => (m.1, m.2.filter (· ≠ key)) from rfl, Assoc.get?_map]
  cases s.matchers.get? name with
  | none => rfl
  | some keys => simp [hk]

theorem Guarded.delete (h : Guarded name status s) (key : JobKey) :
    Guarded name status (s.deleteJob key).2 where
  listener := h.listener
  matched k hk := by
    obtain ⟨hne, hk⟩ := contains_deleteJob.mp hk
    rw [listens_delete hne.symm]
    exact h.matched k hk
  filed := h.filed.delete key
  handled := (h.stocked.delete key).handled
  queued := (h.stocked.delete key).stored

theorem listens_addMatcher {other : String} {key : JobKey} (h : s.addMatcher other key = .ok s') :
    s'.listens other key ∧ ∀ n k, s.listens n k → s'.listens n k := by
  unfold addMatcher at h
  split at h
  · cases h
    unfold listens
    simp only [Assoc.get?_put]
    refine ⟨?_, fun n k hn => ?_⟩
    · simp only [↓reduceIte]
      split <;> simp_all
    · by_cases hname : other = n
      · subst hname
        simp only [↓reduceIte]
        cases hkeys : s.matchers.get? other with
        | none => simp [hkeys] at hn
        | some keys =>
          simp only [hkeys] at hn
          simp only [Option.getD_some]
          split
          · exact hn
          · simp_all
      · simp only [hname, ↓reduceIte]
        exact hn
  · cases h

theorem Guarded.addMatcher (h : Guarded name status s) {other : String} {key : JobKey}
    (hs : s.addMatcher other key = .ok s') : Guarded name status s' := by
  have hlistens := (listens_addMatcher hs).2
  obtain ⟨matchers, rfl⟩ := addMatcher_ok hs
  exact ⟨h.listener, fun k hk => hlistens name k (h.matched k hk), h.filed, h.handled, h.queued⟩

theorem Guarded.scheduleJob (h : Guarded name status s) {definition : JobDefinition}
    {trigger : Trigger} (hmatched : s.listens name definition.key)
    (hs : s.scheduleJob definition trigger = .ok s') : Guarded name status s' := by
  obtain ⟨hhandler, -, rfl⟩ := scheduleJob_ok hs
  exact (h.store hhandler hmatched).enqueue (contains_store.mpr (.inl rfl))

theorem Guarded.addJob (h : Guarded name status s) {definition : JobDefinition} {replace : Bool}
    (hmatched : s.listens name definition.key) (hs : s.addJob definition replace = .ok s') :
    Guarded name status s' := by
  obtain ⟨hhandler, rfl⟩ := addJob_ok hs
  exact h.store hhandler hmatched

theorem Guarded.triggerNow (h : Guarded name status s) {key : JobKey} {data : TriggerData}
    {now : Instant} (hs : s.triggerNow key data now = .ok s') : Guarded name status s' := by
  obtain ⟨hstored, rfl⟩ := triggerNow_ok hs
  exact h.enqueue hstored

theorem Guarded.take (h : Guarded name status s) (now : Instant) :
    Guarded name status (s.take now).2 := by
  unfold Scheduler.take
  split
  · exact h
  next q rest hqueue =>
    split
    · exact h
    · exact h.withQueue fun q' hq' => hqueue ▸ List.mem_cons_of_mem q hq'

theorem Guarded.afterFire (h : Guarded name status s) (fire : PendingFire)
    (trigger : Option Trigger) (outcome : FireOutcome) (now : Instant) :
    Guarded name status ((s.afterFire fire trigger outcome now).getD s) := by
  obtain ⟨heq, -⟩ | ⟨hstored, ⟨due, -, heq⟩ | ⟨slot, -, heq⟩⟩ :=
    s.afterFire_cases fire trigger outcome now
  · rw [heq]
    exact h
  · rw [heq]
    exact h.enqueue hstored
  · rw [heq]
    exact h.enqueue hstored

end Scheduler

end JobEngine
