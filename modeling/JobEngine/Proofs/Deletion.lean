import JobEngine.Proofs.RefireChain
import JobEngine.Proofs.TriggerFires
/-! What a deletion ends. Nothing that a key had before it was deleted comes back, and a key that is
stored again has the fires of its new trigger only, as long as it is not stored again while a fire
from before the deletion is under way. Such a fire is followed up as if its job were still the one
that it was taken for. -/

namespace JobEngine

variable {σ η ν : Type}

namespace Traffic

/-- A key has nothing left of what it was before a deletion. -/
structure Severed (t : Traffic η ν) (rootOf : Nat → Nat) (key : JobKey) : Prop where
  waiting : ∀ q ∈ t.scheduler.queue, q.fire.key = key →
    ∀ r ∈ t.removals, r.1 = key → r.2 < rootOf q.seq
  taken : ∀ d ∈ t.departures, d.taken.fire.key = key →
    ∀ r ∈ t.removals, r.1 = key → r.2 < d.number → r.2 < rootOf d.number
  single : (t.waiting key).length ≤ 1
  data : ∀ T, t.scheduler.triggerOf key = some T → ∀ q ∈ t.waiting key,
    q.fire.triggerData = T.data
  unset : t.scheduler.triggerOf key = none → t.waiting key = []

section

variable {harness : Harness σ} {t : Traffic η ν} {rootOf : Nat → Nat} {key : JobKey} {T : Trigger}

theorem Standing.waiting_le (h : Standing T t key) : (t.waiting key).length ≤ 1 := by
  cases h with
  | waiting trail honly => simp [honly]
  | aloft _ _ _ _ hnone | stopped _ _ _ _ _ hnone => simp [hnone]

theorem Standing.waiting_data (h : Standing T t key) :
    ∀ q ∈ t.waiting key, q.fire.triggerData = T.data := by
  intro q hq
  cases h with
  | @waiting q' trail honly =>
    rw [honly] at hq
    rw [List.mem_singleton.mp hq]
    exact trail.data
  | aloft _ _ _ _ hnone | stopped _ _ _ _ _ hnone =>
    rw [hnone] at hq
    cases hq

/-- A deletion ends a registration for good, when the key is not stored again before the fires that
were under way have ended. -/
theorem deletion_severs (h : Lineage harness (Grounded key) t rootOf) : Severed t rootOf key := by
  have hrooted := h.rooted
  have hregular := h.regular
  have hsingle : (t.waiting key).length ≤ 1 := by
    cases htrigger : t.scheduler.triggerOf key with
    | none => simp [(hregular.unset htrigger).2]
    | some T => exact (hregular.set T htrigger).waiting_le
  exact ⟨hrooted.waiting, hrooted.taken, hsingle, fun T hset => (hregular.set T hset).waiting_data,
    fun hunset => (hregular.unset hunset).2⟩

end

/-- A key is deleted while its fire is under way, and scheduled again when that fire has ended. -/
theorem rescheduled_severed : ∃ (t : Traffic Unit Unit) (rootOf : Nat → Nat),
    t.removals.length = 1 ∧ (t.waiting report.key).length = 1 ∧ Severed t rootOf report.key := by
  have opened : Lineage onceMore (Grounded report.key) vacant id := .start [("report", ())] [] []
  have stored := opened.next (.scheduleJob report { schedule := .once .epoch } rfl) rfl
    fun _ _ _ hd => by cases hd
  have taken := stored.next (.depart .epoch rfl rfl) rfl fun h => by cases h
  have deleted := taken.next (.deleteJob report.key) rfl fun _ h => by cases h
  have landed := deleted.land (busy 0) .epoch List.mem_cons_self rfl (.ran _ _ _ rfl)
  have again := landed.next (.scheduleJob report { schedule := .once .epoch } rfl) rfl
    fun _ _ d hd _ => by
      rw [List.mem_singleton.mp hd]
      exact Option.some_ne_none _
  exact ⟨_, _, rfl, rfl, deletion_severs again⟩

/-- A key that is stored again while a fire from before its deletion is under way gets the refire of
that fire, though it has no trigger any more. -/
theorem deletion_undone : ¬∀ (t : Traffic Unit Unit) (rootOf : Nat → Nat),
    Lineage onceMore Freely t rootOf → Severed t rootOf report.key := by
  intro severed
  have opened : Lineage onceMore Freely vacant id := .start [("report", ())] [] []
  have stored := opened.next (.scheduleJob report { schedule := .once .epoch } rfl) rfl trivial
  have taken := stored.next (.depart .epoch rfl rfl) rfl trivial
  have deleted := taken.next (.deleteJob report.key) rfl trivial
  have again := deleted.next (.addJob report false rfl) rfl trivial
  have landed := again.land (busy 0) .epoch List.mem_cons_self rfl (.ran _ _ _ rfl)
  exact absurd ((severed _ _ landed).unset rfl) (List.cons_ne_nil _ _)

end Traffic

end JobEngine
