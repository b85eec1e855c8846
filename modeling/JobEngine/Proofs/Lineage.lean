import JobEngine.Proofs.Traffic
/-! Where fires come from. A fire that is queued after another descends from it, and every line of
descent begins with a fire that somebody scheduled or asked for. When a key is deleted its waiting
fires are removed, but a fire of it may be under way. As long as the key is not stored again before
that fire has ended, nothing descends from before the deletion. -/

namespace JobEngine

variable {σ η ν : Type}

namespace Traffic

/-- The roots after a step, when what the step queues descends from the fire of that number. -/
def inherit (rootOf : Nat → Nat) (t t' : Traffic η ν) (n : Nat) : Nat → Nat := fun k =>
  if t.scheduler.seq < k ∧ k ≤ t'.scheduler.seq then rootOf n else rootOf k

/-- Traffic, with the number at the root of each number that was given. Only what is queued when a
fire is followed up has a root other than itself. All other steps must be allowed. -/
inductive Lineage (harness : Harness σ) (allowed : Traffic η ν → Traffic η ν → Prop) :
    Traffic η ν → (Nat → Nat) → Prop where
  | start (registry : Registry η) (listeners : Assoc String ν)
      (matchers : Assoc String (List JobKey)) :
      Lineage harness allowed { scheduler := { registry, listeners, matchers } } id
  | next {t t' rootOf} (h : Lineage harness allowed t rootOf) (step : Step harness t t')
      (hsame : t'.landings = t.landings) (hallowed : allowed t t') :
      Lineage harness allowed t' rootOf
  | land {t d rootOf} (outcome : FireOutcome) (now : Instant)
      (h : Lineage harness allowed t rootOf) (hd : d ∈ t.departures)
      (hopen : t.landings.get? d.number = none)
      (hending : Ending harness t.scheduler.registry d.taken outcome) :
      Lineage harness allowed (t.land d outcome now)
        (inherit rootOf t (t.land d outcome now) d.number)

def Freely (_ _ : Traffic η ν) : Prop := True

/-- The key is stored anew only when no fire of it is under way. -/
def Grounded (key : JobKey) (t t' : Traffic η ν) : Prop :=
  t.scheduler.contains key = false → t'.scheduler.contains key →
    ∀ d ∈ t.departures, d.taken.fire.key = key → t.landings.get? d.number ≠ none

def Current (t : Traffic η ν) (key : JobKey) (n : Nat) : Prop :=
  ∀ r ∈ t.removals, r.1 = key → r.2 < n

instance (t : Traffic η ν) (key : JobKey) (n : Nat) : Decidable (t.Current key n) :=
  inferInstanceAs (Decidable (∀ r ∈ t.removals, r.1 = key → r.2 < n))

/-- What descends from before a deletion of the key is out of the way of what comes after it. -/
structure Rooted (t : Traffic η ν) (rootOf : Nat → Nat) (key : JobKey) : Prop where
  fresh : ∀ n, t.scheduler.seq < n → rootOf n = n
  root_le : ∀ n, rootOf n ≤ n
  removed : ∀ r ∈ t.removals, r.2 ≤ t.scheduler.seq
  waiting : ∀ q ∈ t.scheduler.queue, q.fire.key = key → t.Current key (rootOf q.seq)
  taken : ∀ d ∈ t.departures, d.taken.fire.key = key → ∀ r ∈ t.removals, r.1 = key →
    r.2 < d.number → r.2 < rootOf d.number
  aloft : t.scheduler.contains key → ∀ d ∈ t.departures, d.taken.fire.key = key →
    t.landings.get? d.number = none → t.Current key (rootOf d.number)

section

variable {harness : Harness σ} {allowed : Traffic η ν → Traffic η ν → Prop} {t t' : Traffic η ν}
variable {rootOf rootOf' : Nat → Nat} {key : JobKey} {d : Departure ν} {outcome : FireOutcome}
variable {now : Instant} {n : Nat}

theorem Lineage.reachable (h : Lineage harness allowed t rootOf) : Reachable harness t := by
  induction h with
  | start registry listeners matchers => exact .start registry listeners matchers
  | next _ step _ _ ih => exact ih.next step
  | land outcome now _ hd hopen hending ih => exact ih.next (.land outcome now hd hopen hending)

theorem Reachable.lineage {P : Traffic η ν → Prop} (h : Reachable harness t) (hP : P t)
    (back : ∀ {t t'}, Step harness t t' → P t' → P t)
    (hallowed : ∀ {t t'}, Reachable harness t → Step harness t t' → P t' → allowed t t') :
    ∃ rootOf, Lineage harness allowed t rootOf := by
  induction h with
  | start registry listeners matchers => exact ⟨id, .start registry listeners matchers⟩
  | @next t t' before step ih =>
    obtain ⟨rootOf, lineage⟩ := ih (back step hP)
    by_cases hsame : t'.landings = t.landings
    · exact ⟨rootOf, .next lineage step hsame (hallowed before step hP)⟩
    · cases step with
      | land outcome now hd hopen hending => exact ⟨_, .land outcome now lineage hd hopen hending⟩
      | _ => exact absurd rfl hsame

theorem Current.mono {m : Nat} (h : t.Current key n) (hnm : n ≤ m) : t.Current key m :=
  fun r hr hkey => Nat.lt_of_lt_of_le (h r hr hkey) hnm

private theorem inherit_of_ne (h : t'.scheduler.seq ≤ t.scheduler.seq + 1) {k : Nat}
    (hk : k ≠ t.scheduler.seq + 1) : inherit rootOf t t' n k = rootOf k :=
  if_neg fun hnew => hk (by omega)

private theorem inherit_new (h : t'.scheduler.seq = t.scheduler.seq + 1) :
    inherit rootOf t t' n (t.scheduler.seq + 1) = rootOf n :=
  if_pos ⟨Nat.lt_succ_self _, Nat.le_of_eq h.symm⟩

private theorem inherit_same (h : t'.scheduler.seq = t.scheduler.seq) :
    inherit rootOf t t' n = rootOf := by
  funext k
  exact if_neg fun hnew => by omega

namespace Rooted

private theorem removed_lt (h : Rooted t rootOf key) : t.Current key (t.scheduler.seq + 1) :=
  fun r hr _ => Nat.lt_succ_of_le (h.removed r hr)

theorem listening (h : Rooted t rootOf key) (listeners : Assoc String ν)
    (matchers : Assoc String (List JobKey)) :
    Rooted { t with scheduler := { t.scheduler with listeners, matchers } } rootOf key :=
  ⟨h.fresh, h.root_le, h.removed, h.waiting, h.taken, h.aloft⟩

theorem store (h : Rooted t rootOf key) {k : JobKey} {job : StoredJob}
    (hgrounded : Grounded key t (t.store k job)) : Rooted (t.store k job) rootOf key where
  fresh := h.fresh
  root_le := h.root_le
  removed := h.removed
  waiting := h.waiting
  taken := h.taken
  aloft hstored d hd hkey hopen := by
    cases hbefore : t.scheduler.contains key with
    | true => exact h.aloft hbefore d hd hkey hopen
    | false =>
      -- the key is new, and no fire of it may be under way now
      exact absurd hopen (hgrounded hbefore hstored d hd hkey)

theorem enqueue (h : Rooted t rootOf key) (ho : Orderly t) {line : Nat} {due : Instant}
    {fire : PendingFire} (hsame : ∀ k, k ≠ t.scheduler.seq + 1 → rootOf' k = rootOf k)
    (hle : rootOf' (t.scheduler.seq + 1) ≤ t.scheduler.seq + 1)
    (hroot : fire.key = key → t.Current key (rootOf' (t.scheduler.seq + 1))) :
    Rooted (t.enqueue line due fire) rootOf' key where
  fresh k hk := by
    change t.scheduler.seq + 1 < k at hk
    rw [hsame k (Nat.ne_of_gt hk), h.fresh k (Nat.lt_of_succ_lt hk)]
  root_le k := by
    by_cases hk : k = t.scheduler.seq + 1
    · exact hk ▸ hle
    · exact hsame k hk ▸ h.root_le k
  removed r hr := Nat.le_succ_of_le (h.removed r hr)
  waiting q hq hkey := by
    obtain rfl | hq := Scheduler.mem_enqueue.mp hq
    · exact hroot hkey
    · have hgiven := ho.given q hq
      rw [hsame q.seq (by omega)]
      exact h.waiting q hq hkey
  taken d hd := by
    have hnumber := (ho.gone d hd).1
    rw [hsame d.number (by omega)]
    exact h.taken d hd
  aloft hstored d hd := by
    have hnumber := (ho.gone d hd).1
    rw [hsame d.number (by omega)]
    exact h.aloft hstored d hd

theorem record (h : Rooted t rootOf key) (hopen : t.landings.get? n = none) :
    Rooted (t.record n outcome now) rootOf key where
  fresh := h.fresh
  root_le := h.root_le
  removed := h.removed
  waiting := h.waiting
  taken := h.taken
  aloft hstored d hd hkey hstill := by
    by_cases hn : n = d.number
    · exact h.aloft hstored d hd hkey (hn ▸ hopen)
    · exact h.aloft hstored d hd hkey ((if_neg hn).symm.trans hstill)

theorem delete (h : Rooted t rootOf key) (ho : Orderly t) (k : JobKey) :
    Rooted (t.delete k) rootOf key where
  fresh := h.fresh
  root_le := h.root_le
  removed r hr := by
    obtain rfl | hr := List.mem_cons.mp hr
    · exact Nat.le_refl _
    · exact h.removed r hr
  waiting q hq hkey r hr hrkey := by
    obtain ⟨hq, hkept⟩ := List.mem_filter.mp hq
    obtain rfl | hr := List.mem_cons.mp hr
    · exact absurd (hkey.trans hrkey.symm) (of_decide_eq_true hkept)
    · exact h.waiting q hq hkey r hr hrkey
  taken d hd hkey r hr hrkey hlater := by
    obtain rfl | hr := List.mem_cons.mp hr
    · exact absurd hlater (Nat.not_lt.mpr (ho.gone d hd).1)
    · exact h.taken d hd hkey r hr hrkey hlater
  aloft hstored d hd hkey hopen r hr hrkey := by
    obtain ⟨hne, hstored⟩ := Scheduler.contains_deleteJob.mp hstored
    obtain rfl | hr := List.mem_cons.mp hr
    · exact absurd hrkey hne
    · exact h.aloft hstored d hd hkey hopen r hr hrkey

theorem depart (h : Rooted t rootOf key) {q : QueuedFire} {rest : List QueuedFire}
    (hqueue : t.scheduler.queue = q :: rest) (hnumber : d.number = q.seq)
    (hfire : d.taken.fire = q.fire) : Rooted ((t.withQueue rest).depart d) rootOf key where
  fresh := h.fresh
  root_le := h.root_le
  removed := h.removed
  waiting a ha := h.waiting a (hqueue ▸ List.mem_cons_of_mem q ha)
  taken a ha hkey r hr hrkey hlater := by
    obtain ha | ha := List.mem_append.mp ha
    · exact h.taken a ha hkey r hr hrkey hlater
    · obtain rfl := List.mem_singleton.mp ha
      rw [hnumber]
      exact h.waiting q (hqueue ▸ List.mem_cons_self) (hfire ▸ hkey) r hr hrkey
  aloft hstored a ha hkey hopen := by
    obtain ha | ha := List.mem_append.mp ha
    · exact h.aloft hstored a ha hkey hopen
    · obtain rfl := List.mem_singleton.mp ha
      rw [hnumber]
      exact h.waiting q (hqueue ▸ List.mem_cons_self) (hfire ▸ hkey)

/-- What follows a fire descends from it, and is queued only where its job is still stored. -/
theorem land (h : Rooted t rootOf key) (ho : Orderly t) (hd : d ∈ t.departures)
    (hopen : t.landings.get? d.number = none) :
    Rooted (t.land d outcome now) (inherit rootOf t (t.land d outcome now) d.number) key := by
  have hrecord : Rooted (t.record d.number outcome now) rootOf key := h.record hopen
  have horderly : Orderly (t.record d.number outcome now) := ho.record hd
  -- a refire and a next slot have the key of the fire that they follow
  have hqueued : t.scheduler.contains d.taken.fire.key → ∀ line due fire,
      fire.key = d.taken.fire.key → Rooted ((t.record d.number outcome now).enqueue line due fire)
        (inherit rootOf t ((t.record d.number outcome now).enqueue line due fire) d.number)
        key := by
    intro hstored line due fire hfire
    refine hrecord.enqueue horderly (fun k hk => inherit_of_ne (Nat.le_refl _) hk) ?_ ?_
    · change inherit _ t _ _ (t.scheduler.seq + 1) ≤ t.scheduler.seq + 1
      rw [inherit_new rfl]
      exact Nat.le_succ_of_le (Nat.le_trans (h.root_le _) (ho.gone d hd).1)
    · intro hkey
      change t.Current key (inherit _ t _ _ (t.scheduler.seq + 1))
      rw [inherit_new rfl]
      have hkey : d.taken.fire.key = key := hfire.symm.trans hkey
      exact h.aloft (hkey ▸ hstored) d hd hkey hopen
  obtain ⟨heq, -⟩ | ⟨hstored, ⟨due, -, heq⟩ | ⟨-, slot, -, heq⟩⟩ := ho.land_cases d outcome now
  · have hsame : (t.record d.number outcome now).scheduler.seq = t.scheduler.seq := rfl
    rw [heq, inherit_same hsame]
    exact hrecord
  · rw [heq]
    exact hqueued hstored _ _ _ rfl
  · rw [heq]
    exact hqueued hstored _ _ _ rfl

end Rooted

theorem Effect.rooted (h : Effect harness t t') (ho : Orderly t) (hroot : Rooted t rootOf key)
    (hsame : t'.landings = t.landings) (hgrounded : Grounded key t t') :
    Rooted t' rootOf key := by
  -- what is queued now descends from nothing, so it comes after all deletions so far
  have hown : rootOf (t.scheduler.seq + 1) = t.scheduler.seq + 1 :=
    hroot.fresh _ (Nat.lt_succ_self _)
  have hcurrent : t.Current key (rootOf (t.scheduler.seq + 1)) := by
    rw [hown]
    exact hroot.removed_lt
  cases h with
  | idle => exact hroot
  | listened listeners matchers => exact hroot.listening listeners matchers
  | stored hhandler => exact hroot.store hgrounded
  | queued hstored hfirst hmanual =>
    exact hroot.enqueue ho (fun _ _ => rfl) (Nat.le_of_eq hown) fun _ => hcurrent
  | @scheduled definition T hhandler hnew =>
    have hstore : Rooted (t.store definition.key ⟨definition, some T⟩) rootOf key :=
      hroot.store hgrounded
    exact hstore.enqueue (ho.store hhandler) (fun _ _ => rfl) (Nat.le_of_eq hown) fun _ => hcurrent
  | deleted k => exact hroot.delete ho k
  | departed hqueue hdue hjob => exact hroot.depart hqueue rfl rfl
  | landed hd hopen hending => exact absurd hsame (List.cons_ne_self _ _)

theorem Lineage.rooted (h : Lineage harness (Grounded key) t rootOf) : Rooted t rootOf key := by
  induction h with
  | start registry listeners matchers =>
    exact
      { fresh := fun _ _ => rfl, root_le := Nat.le_refl, removed := by simp, waiting := by simp
        taken := by simp, aloft := by simp }
  | next before step hsame hgrounded ih =>
    have ho := before.reachable.orderly
    exact (step.effect ho).rooted ho ih hsame hgrounded
  | land outcome now before hd hopen hending ih =>
    exact ih.land before.reachable.orderly hd hopen

end

end Traffic

end JobEngine
