import JobEngine.Proofs.Traffic
/-! The attempts of one logical fire. They follow one another, each after the delay that the failure
before it asked for, until one succeeds, fails for good or has used up its retries. -/

namespace JobEngine

variable {σ η ν : Type}

namespace Traffic

/-- The attempts of a line, in the order in which they were taken off the queue. -/
def line (t : Traffic η ν) (x : Nat) : List (Departure ν) :=
  t.departures.filter fun d => t.lineOf d.number = x

def Waits (t : Traffic η ν) (x : Nat) (q : QueuedFire) : Prop :=
  q ∈ t.scheduler.queue ∧ t.lineOf q.seq = x

/-- Since the line began its key was not deleted, no attempt was vetoed, and every refire was due at
a time that the calendar has. -/
structure Undisturbed (t : Traffic η ν) (x : Nat) : Prop where
  kept : ∀ d ∈ t.line x, ∀ r ∈ t.removals, r.1 = d.taken.fire.key → r.2 < x
  passed : ∀ d ∈ t.line x, ∀ now, t.landings.get? d.number ≠ some (.vetoed, now)
  representable : ∀ d ∈ t.line x, ∀ outcome now delay,
    t.landings.get? d.number = some (outcome, now) → outcome.delay? = some delay →
      (now.shift? delay.nanos).isSome

inductive Final (policy : RetryPolicy) (attempt : Nat) : FireOutcome → Prop where
  | done : Final policy attempt (.dispatched (.ok ()))
  | fatal (e : DispatchError) (h : e.aftermath = .fatal) :
      Final policy attempt (.dispatched (.error e))
  | exhausted (e : DispatchError) (h : e.aftermath = .exhausted) (hlimit : 0 ≤ policy.maxRetries)
      (hused : policy.maxRetries ≤ attempt) : Final policy attempt (.dispatched (.error e))

theorem Final.no_delay {policy : RetryPolicy} {attempt : Nat} {outcome : FireOutcome}
    (h : Final policy attempt outcome) : outcome.delay? = none := by
  cases h with
  | done => rfl
  | fatal e h | exhausted e h => simp [FireOutcome.delay?, DispatchError.refireDelay, h]

theorem final_or_refire {policy : RetryPolicy} {fire : FireContext}
    {result : Except DispatchError Unit} (answer : RunAnswer policy fire result) :
    Final policy fire.refireCount (.dispatched result) ∨
      ∃ e, result = .error e ∧
        e.aftermath =
          .refire (policy.backoff.delayFor (Nat.min (fire.refireCount + 1) Backoff.maxAttempt)) ∧
        (policy.maxRetries < 0 ∨ (fire.refireCount : Int) < policy.maxRetries) := by
  cases answer with
  | done => exact .inl .done
  | unsent e => exact .inl (.fatal _ rfl)
  | failed job cause =>
    obtain hfatal | ⟨hrefire, hmore⟩ | ⟨hexhausted, hlimit, hused⟩ :=
      policy.aftermath_cases fire.refireCount (job.classify cause)
    · exact .inl (.fatal _ hfatal)
    · exact .inr ⟨_, rfl, hrefire, hmore⟩
    · exact .inl (.exhausted _ hexhausted hlimit hused)

structure Leg (policy : RetryPolicy) (landings : Assoc Nat (FireOutcome × Instant))
    (p : PendingFire) (n : Nat) (d : Departure ν) (next : Instant) : Prop where
  fire : d.taken.fire = { p with refireCount := n }
  asked : ∃ e now, landings.get? d.number = some (.dispatched (.error e), now) ∧
    e.aftermath = .refire (policy.backoff.delayFor (Nat.min (n + 1) Backoff.maxAttempt)) ∧
    next.nanos = now.nanos +
      (policy.backoff.delayFor (Nat.min (n + 1) Backoff.maxAttempt)).nanos
  more : policy.maxRetries < 0 ∨ (n : Int) < policy.maxRetries

/-- The first attempts at a fire, so many of them, all of which asked for another; the next one may
start at this time. -/
inductive Legs (policy : RetryPolicy) (landings : Assoc Nat (FireOutcome × Instant))
    (p : PendingFire) : Nat → Instant → List (Departure ν) → Prop where
  | nil (due : Instant) : Legs policy landings p 0 due []
  | snoc {n due next ds} (d : Departure ν) (legs : Legs policy landings p n due ds)
      (hdue : due ≤ d.time) (leg : Leg policy landings p n d next) :
      Legs policy landings p (n + 1) next (ds ++ [d])

/-- How far a line has come. -/
inductive Stage (policy : RetryPolicy) (t : Traffic η ν) (x : Nat) : Prop where
  | unused (hline : t.line x = []) (hnone : ∀ q, ¬t.Waits x q)
  | waiting {p n due q} (legs : Legs policy t.landings p n due (t.line x)) (hq : t.Waits x q)
      (honly : ∀ q', t.Waits x q' → q' = q) (hfire : q.fire = { p with refireCount := n })
      (hdue : due ≤ q.due)
  | flying {p n due ds d} (legs : Legs policy t.landings p n due ds) (hline : t.line x = ds ++ [d])
      (hfire : d.taken.fire = { p with refireCount := n }) (hdue : due ≤ d.time)
      (hopen : t.landings.get? d.number = none) (hnone : ∀ q, ¬t.Waits x q)
      (hstored : t.scheduler.contains p.key)
  | ended {p n due ds d outcome now} (legs : Legs policy t.landings p n due ds)
      (hline : t.line x = ds ++ [d]) (hfire : d.taken.fire = { p with refireCount := n })
      (hdue : due ≤ d.time) (hlanded : t.landings.get? d.number = some (outcome, now))
      (hfinal : Final policy n outcome) (hnone : ∀ q, ¬t.Waits x q)

section

variable {policy : RetryPolicy} {landings landings' : Assoc Nat (FireOutcome × Instant)}
variable {p : PendingFire} {n x : Nat} {due : Instant} {ds : List (Departure ν)} {t : Traffic η ν}

theorem Leg.mono {d : Departure ν} (h : ∀ n v, landings.get? n = some v → landings'.get? n = some v)
    (leg : Leg policy landings p n d due) : Leg policy landings' p n d due := by
  obtain ⟨e, now, hlanded, hrefire, hnext⟩ := leg.asked
  exact ⟨leg.fire, ⟨e, now, h _ _ hlanded, hrefire, hnext⟩, leg.more⟩

theorem Legs.mono (h : ∀ n v, landings.get? n = some v → landings'.get? n = some v)
    (legs : Legs policy landings p n due ds) : Legs policy landings' p n due ds := by
  induction legs with
  | nil due => exact .nil due
  | snoc d legs hdue leg ih => exact .snoc d ih hdue (leg.mono h)

theorem Legs.length_eq (legs : Legs policy landings p n due ds) : ds.length = n := by
  induction legs with
  | nil => rfl
  | snoc d legs hdue leg ih => rw [List.length_append, ih, List.length_singleton]

/-- Each attempt is a leg, and the next one, if there is one, starts no earlier than it may. -/
theorem Legs.leg (legs : Legs policy landings p n due ds) {i : Nat} {d : Departure ν}
    (h : ds[i]? = some d) : ∃ next, Leg policy landings p i d next ∧
      (∀ d', ds[i + 1]? = some d' → next ≤ d'.time) ∧ (i + 1 = n → next = due) := by
  induction legs with
  | nil => simp at h
  | @snoc n due next ds d₀ legs hdue leg ih =>
    have hlength := legs.length_eq
    by_cases hi : i < n
    · rw [List.getElem?_append_left (hlength ▸ hi)] at h
      obtain ⟨next', leg', hlater, hlast⟩ := ih h
      refine ⟨next', leg', fun d' hd' => ?_, fun heq => absurd heq (by omega)⟩
      by_cases hn : i + 1 < n
      · rw [List.getElem?_append_left (hlength ▸ hn)] at hd'
        exact hlater d' hd'
      · have hn : i + 1 = n := by omega
        rw [← hlength.trans hn.symm, List.getElem?_concat_length] at hd'
        cases hd'
        exact hlast hn ▸ hdue
    · have hi' := (List.getElem?_eq_some_iff.mp h).1
      rw [List.length_append, List.length_singleton, hlength] at hi'
      obtain rfl : i = n := by omega
      rw [← hlength, List.getElem?_concat_length] at h
      cases h
      refine ⟨next, leg, fun d' hd' => ?_, fun _ => rfl⟩
      rw [List.getElem?_eq_none (by simp [hlength])] at hd'
      cases hd'

theorem Legs.exists_leg (legs : Legs policy landings p n due ds) {d : Departure ν} (hd : d ∈ ds) :
    ∃ i next, Leg policy landings p i d next := by
  obtain ⟨i, hi⟩ := List.mem_iff_getElem?.mp hd
  obtain ⟨next, leg, -⟩ := legs.leg hi
  exact ⟨i, next, leg⟩

theorem Legs.landed (legs : Legs policy landings p n due ds) :
    ∀ d ∈ ds, landings.get? d.number ≠ none := by
  intro d hd
  obtain ⟨i, next, leg⟩ := legs.exists_leg hd
  obtain ⟨e, now, hlanded, -⟩ := leg.asked
  rw [hlanded]
  exact Option.some_ne_none _

theorem Legs.key (legs : Legs policy landings p n due ds) :
    ∀ d ∈ ds, d.taken.fire.key = p.key := by
  intro d hd
  obtain ⟨i, next, leg⟩ := legs.exists_leg hd
  rw [leg.fire]

theorem Stage.frame {t' : Traffic η ν} (stage : Stage policy t x) (hline : t'.line x = t.line x)
    (hwaits : ∀ q, t'.Waits x q ↔ t.Waits x q)
    (hlandings : ∀ n v, t.landings.get? n = some v → t'.landings.get? n = some v)
    (hopen : ∀ d ∈ t.line x, t.landings.get? d.number = none → t'.landings.get? d.number = none)
    (hstored : ∀ d ∈ t.line x, t.scheduler.contains d.taken.fire.key →
      t'.scheduler.contains d.taken.fire.key) : Stage policy t' x := by
  cases stage with
  | unused hunused hnone =>
    exact .unused (hline.trans hunused) fun q hq => hnone q ((hwaits q).mp hq)
  | @waiting p n due q legs hq honly hfire hdue =>
    refine .waiting (hline ▸ legs.mono hlandings) ((hwaits q).mpr hq) ?_ hfire hdue
    exact fun q' hq' => honly q' ((hwaits q').mp hq')
  | @flying p n due ds d legs hds hfire hdue hnotyet hnone hkept =>
    have hd : d ∈ t.line x := hds ▸ List.mem_append_right ds (List.mem_singleton_self d)
    have hkey : d.taken.fire.key = p.key := by rw [hfire]
    refine .flying (legs.mono hlandings) (hline.trans hds) hfire hdue (hopen d hd hnotyet) ?_ ?_
    · exact fun q hq => hnone q ((hwaits q).mp hq)
    · exact hkey ▸ hstored d hd (hkey ▸ hkept)
  | ended legs hds hfire hdue hlanded hfinal hnone =>
    exact .ended (legs.mono hlandings) (hline.trans hds) hfire hdue (hlandings _ _ hlanded) hfinal
      fun q hq => hnone q ((hwaits q).mp hq)

variable {line : Nat} {fire : PendingFire} {outcome : FireOutcome} {now : Instant}

theorem Orderly.line_le_seq (ho : Orderly t) {d : Departure ν} (hd : d ∈ t.line x) :
    x ≤ t.scheduler.seq := by
  obtain ⟨hd, hx⟩ := List.mem_filter.mp hd
  rw [← of_decide_eq_true hx]
  exact Nat.le_trans (ho.line_le _) (ho.gone d hd).1

theorem Orderly.line_enqueue (ho : Orderly t) (line : Nat) (due : Instant) (fire : PendingFire)
    (x : Nat) : (t.enqueue line due fire).line x = t.line x := by
  refine List.filter_congr fun d hd => ?_
  have hne : d.number ≠ t.scheduler.seq + 1 := Nat.ne_of_lt (Nat.lt_succ_of_le (ho.gone d hd).1)
  simp only [Traffic.enqueue, assign_of_ne t.lineOf line hne]

theorem Orderly.waits_enqueue (ho : Orderly t) (q : QueuedFire) :
    (t.enqueue line due fire).Waits x q ↔
      (line = x ∧ q = { due, seq := t.scheduler.seq + 1, fire }) ∨ t.Waits x q := by
  unfold Waits
  simp only [Traffic.enqueue, Scheduler.mem_enqueue]
  constructor
  · rintro ⟨rfl | hq, hx⟩
    · exact .inl ⟨(assign_self _ _ _).symm.trans hx, rfl⟩
    · have hne : q.seq ≠ t.scheduler.seq + 1 := Nat.ne_of_lt (Nat.lt_succ_of_le (ho.given q hq))
      exact .inr ⟨hq, (assign_of_ne _ _ hne).symm.trans hx⟩
  · rintro (⟨rfl, rfl⟩ | ⟨hq, hx⟩)
    · exact ⟨.inl rfl, assign_self _ _ _⟩
    · have hne : q.seq ≠ t.scheduler.seq + 1 := Nat.ne_of_lt (Nat.lt_succ_of_le (ho.given q hq))
      exact ⟨.inr hq, (assign_of_ne _ _ hne).trans hx⟩

theorem Stage.enqueue_other (stage : Stage policy t x) (ho : Orderly t) (hx : line ≠ x) :
    Stage policy (t.enqueue line due fire) x := by
  refine stage.frame (ho.line_enqueue line due fire x) (fun q => ?_) (fun _ _ h => h)
    (fun _ _ h => h) fun _ _ h => h
  rw [ho.waits_enqueue]
  exact or_iff_right fun h => hx h.1

theorem Stage.enqueue_next (ho : Orderly t) (legs : Legs policy t.landings p n due (t.line x))
    (hnone : ∀ q, ¬t.Waits x q) (hfire : fire = { p with refireCount := n }) :
    Stage policy (t.enqueue x due fire) x := by
  have hline := ho.line_enqueue x due fire x
  refine .waiting (hline ▸ legs) ((ho.waits_enqueue _).mpr (.inl ⟨rfl, rfl⟩)) (fun q hq => ?_)
    hfire (Int.le_refl _)
  exact ((ho.waits_enqueue q).mp hq).elim (fun h => h.2) fun h => absurd h (hnone q)

theorem Stage.begin (ho : Orderly t) (hfirst : fire.refireCount = 0) :
    Stage policy (t.enqueue (t.scheduler.seq + 1) due fire) (t.scheduler.seq + 1) := by
  have hline : t.line (t.scheduler.seq + 1) = [] := List.eq_nil_iff_forall_not_mem.mpr fun d hd =>
    Nat.not_succ_le_self _ (ho.line_le_seq hd)
  have legs : Legs policy t.landings fire 0 due (t.line (t.scheduler.seq + 1)) := hline ▸ .nil due
  refine .enqueue_next ho legs (fun q hq => ?_) (by rw [← hfirst])
  have hle := ho.line_le q.seq
  have hgiven := ho.given q hq.1
  rw [hq.2] at hle
  omega

theorem Stage.enqueue_own (stage : Stage policy t x) (ho : Orderly t)
    (hfirst : fire.refireCount = 0) :
    Stage policy (t.enqueue (t.scheduler.seq + 1) due fire) x := by
  by_cases hx : t.scheduler.seq + 1 = x
  · exact hx ▸ .begin ho hfirst
  · exact stage.enqueue_other ho hx

theorem Stage.store (stage : Stage policy t x) (key : JobKey) (job : StoredJob) :
    Stage policy (t.store key job) x := by
  refine stage.frame rfl (fun _ => Iff.rfl) (fun _ _ h => h) (fun _ _ h => h) fun d _ h => ?_
  exact Scheduler.contains_store.mpr (.inr h)

theorem get?_record_of_ne {k : Nat} (h : k ≠ n) :
    (t.record n outcome now).landings.get? k = t.landings.get? k := by
  simp [record, Assoc.get?, h.symm]

theorem record_extends (hopen : t.landings.get? n = none) (k : Nat) (v : FireOutcome × Instant)
    (h : t.landings.get? k = some v) : (t.record n outcome now).landings.get? k = some v := by
  by_cases hk : k = n
  · rw [hk, hopen] at h
    cases h
  · rw [get?_record_of_ne hk]
    exact h

theorem Stage.record_other (stage : Stage policy t x) {d : Departure ν}
    (hopen : t.landings.get? d.number = none) (hx : t.lineOf d.number ≠ x) :
    Stage policy (t.record d.number outcome now) x := by
  refine stage.frame rfl (fun _ => Iff.rfl) (record_extends hopen) (fun d' hd' h => ?_)
    fun _ _ h => h
  have hne : d'.number ≠ d.number := fun heq =>
    hx (heq ▸ of_decide_eq_true (List.mem_filter.mp hd').2)
  rw [get?_record_of_ne hne]
  exact h

theorem Stage.delete (stage : Stage policy t x) {key : JobKey}
    (kept : ∀ d ∈ t.line x, d.taken.fire.key ≠ key) : Stage policy (t.delete key) x := by
  by_cases hwaiting : ∃ q, t.Waits x q ∧ q.fire.key = key
  · obtain ⟨q, hq, hkey⟩ := hwaiting
    cases stage with
    | unused hline hnone => exact absurd hq (hnone q)
    | flying legs hline hfire hdue hopen hnone hstored => exact absurd hq (hnone q)
    | ended legs hline hfire hdue hlanded hfinal hnone => exact absurd hq (hnone q)
    | @waiting p n due q' legs hq' honly hfire hdue =>
      obtain rfl := honly q hq
      have hfirekey : q.fire.key = p.key := by rw [hfire]
      have hline : t.line x = [] := List.eq_nil_iff_forall_not_mem.mpr fun d hd =>
        kept d hd ((legs.key d hd).trans (hfirekey.symm.trans hkey))
      refine .unused hline fun q' hq' => ?_
      obtain ⟨hmem, hne⟩ := List.mem_filter.mp hq'.1
      obtain rfl := honly q' ⟨hmem, hq'.2⟩
      exact of_decide_eq_true hne hkey
  · refine stage.frame rfl (fun q => ?_) (fun _ _ h => h) (fun _ _ h => h) fun d hd h => ?_
    · constructor
      · exact fun ⟨hq, hx⟩ => ⟨(List.mem_filter.mp hq).1, hx⟩
      · rintro ⟨hq, hx⟩
        refine ⟨List.mem_filter.mpr ⟨hq, decide_eq_true fun hkey => ?_⟩, hx⟩
        exact hwaiting ⟨q, ⟨hq, hx⟩, hkey⟩
    · exact Scheduler.contains_deleteJob.mpr ⟨(kept d hd).symm, h⟩

section

variable {q : QueuedFire} {rest : List QueuedFire} {d : Departure ν}

theorem Orderly.waits_depart (ho : Orderly t) (hqueue : t.scheduler.queue = q :: rest)
    (q' : QueuedFire) :
    ((t.withQueue rest).depart d).Waits x q' ↔ t.Waits x q' ∧ q' ≠ q := by
  have hnumbered := ho.numbered
  rw [hqueue, List.map_cons, List.nodup_cons] at hnumbered
  constructor
  · rintro ⟨hq', hx⟩
    refine ⟨⟨hqueue ▸ List.mem_cons_of_mem q hq', hx⟩, fun heq => ?_⟩
    exact hnumbered.1 (List.mem_map.mpr ⟨q', hq', by rw [heq]⟩)
  · rintro ⟨⟨hq', hx⟩, hne⟩
    rw [hqueue] at hq'
    exact ⟨(List.mem_cons.mp hq').resolve_left hne, hx⟩

theorem line_depart_of_ne (hx : t.lineOf d.number ≠ x) :
    ((t.withQueue rest).depart d).line x = t.line x := by
  have hd : [d].filter (fun d => t.lineOf d.number = x) = [] := by simp [hx]
  exact (List.filter_append ..).trans ((congrArg _ hd).trans (List.append_nil _))

theorem line_depart_self (hx : t.lineOf d.number = x) :
    ((t.withQueue rest).depart d).line x = t.line x ++ [d] := by
  have hd : [d].filter (fun d => t.lineOf d.number = x) = [d] := by simp [hx]
  exact (List.filter_append ..).trans (congrArg _ hd)

/-- The fire at the head of the queue is taken. If it is of this line, the next attempt begins. -/
theorem Stage.depart (stage : Stage policy t x) (ho : Orderly t)
    (hqueue : t.scheduler.queue = q :: rest) (hdue : q.due ≤ d.time) (hnumber : d.number = q.seq)
    (hfire : d.taken.fire = q.fire) : Stage policy ((t.withQueue rest).depart d) x := by
  have hq : q ∈ t.scheduler.queue := hqueue ▸ List.mem_cons_self
  by_cases hx : t.lineOf q.seq = x
  · have hline : ((t.withQueue rest).depart d).line x = t.line x ++ [d] :=
      line_depart_self (hnumber ▸ hx)
    cases stage with
    | unused _ hnone => exact absurd ⟨hq, hx⟩ (hnone q)
    | flying _ _ _ _ _ hnone _ => exact absurd ⟨hq, hx⟩ (hnone q)
    | ended _ _ _ _ _ _ hnone => exact absurd ⟨hq, hx⟩ (hnone q)
    | @waiting p n earliest q' legs hq' honly hfire' hdue' =>
      obtain rfl := honly q ⟨hq, hx⟩
      refine .flying legs hline (hfire.trans hfire') (Int.le_trans hdue' hdue) ?_ ?_ ?_
      · rw [hnumber]
        exact ho.open_of_mem hq
      · intro q' hq'
        obtain ⟨hq', hne⟩ := (ho.waits_depart hqueue q').mp hq'
        exact hne (honly q' hq')
      · have hkey : p.key = q.fire.key := by rw [hfire']
        exact hkey ▸ ho.stored q hq
  · have hline : ((t.withQueue rest).depart d).line x = t.line x :=
      line_depart_of_ne (hnumber ▸ hx)
    refine stage.frame hline (fun q' => ?_) (fun _ _ h => h) (fun _ _ h => h) fun _ _ h => h
    rw [ho.waits_depart hqueue]
    exact and_iff_left_of_imp fun h heq => hx (heq ▸ h.2)

theorem Stage.flying_of_open (stage : Stage policy t x) (hd : d ∈ t.line x)
    (hopen : t.landings.get? d.number = none) :
    ∃ p n due ds, Legs policy t.landings p n due ds ∧ t.line x = ds ++ [d] ∧
      d.taken.fire = { p with refireCount := n } ∧ due ≤ d.time ∧ (∀ q, ¬t.Waits x q) ∧
      t.scheduler.contains p.key := by
  cases stage with
  | unused hline hnone =>
    rw [hline] at hd
    cases hd
  | waiting legs hq honly hfire hdue => exact absurd hopen (legs.landed d hd)
  | @ended p n due ds d' outcome now legs hline hfire hdue hlanded hfinal hnone =>
    rw [hline] at hd
    rcases List.mem_append.mp hd with hd | hd
    · exact absurd hopen (legs.landed d hd)
    · rw [← List.mem_singleton.mp hd, hopen] at hlanded
      cases hlanded
  | @flying p n due ds d' legs hline hfire hdue hopen' hnone hstored =>
    have hlast := hd
    rw [hline] at hlast
    rcases List.mem_append.mp hlast with hlast | hlast
    · exact absurd hopen (legs.landed d hlast)
    · obtain rfl := List.mem_singleton.mp hlast
      exact ⟨p, n, due, ds, legs, hline, hfire, hdue, hnone, hstored⟩

theorem Stage.land_other (stage : Stage policy t x) (ho : Orderly t) (hd : d ∈ t.departures)
    (hopen : t.landings.get? d.number = none) (hx : t.lineOf d.number ≠ x) :
    Stage policy (t.land d outcome now) x := by
  have hrecorded : Stage policy (t.record d.number outcome now) x := stage.record_other hopen hx
  have horderly : Orderly (t.record d.number outcome now) := ho.record hd
  obtain ⟨heq, -⟩ | ⟨-, ⟨due, -, heq⟩ | ⟨-, slot, -, heq⟩⟩ := ho.land_cases d outcome now
  · exact heq ▸ hrecorded
  · exact heq ▸ hrecorded.enqueue_other horderly hx
  · exact heq ▸ hrecorded.enqueue_own horderly rfl

theorem Stage.land_final (stage : Stage policy t x) (ho : Orderly t) (hd : d ∈ t.line x)
    (hopen : t.landings.get? d.number = none)
    (hfinal : Final policy d.taken.fire.refireCount outcome) :
    Stage policy (t.land d outcome now) x := by
  obtain ⟨p, n, due, ds, legs, hline, hfire, hdue, hnone, -⟩ := stage.flying_of_open hd hopen
  have hcount : d.taken.fire.refireCount = n := by rw [hfire]
  have hrecorded : Stage policy (t.record d.number outcome now) x :=
    .ended (legs.mono (record_extends hopen)) hline hfire hdue (if_pos rfl) (hcount ▸ hfinal) hnone
  have horderly : Orderly (t.record d.number outcome now) := ho.record (List.mem_filter.mp hd).1
  obtain ⟨heq, -⟩ | ⟨-, ⟨due, hnext, -⟩ | ⟨-, slot, -, heq⟩⟩ := ho.land_cases d outcome now
  · exact heq ▸ hrecorded
  · obtain hnothing | ⟨slot, hslot⟩ := Scheduler.nextFire_of_no_delay hfinal.no_delay
    · rw [hnothing] at hnext
      cases hnext
    · rw [hslot] at hnext
      cases hnext
  · exact heq ▸ hrecorded.enqueue_own horderly rfl

/-- An attempt asks for a refire, and the next one waits for its time. -/
theorem Stage.land_refire (stage : Stage policy t x) (ho : Orderly t) (hd : d ∈ t.line x)
    (hopen : t.landings.get? d.number = none) {e : DispatchError}
    (hrefire : e.aftermath = .refire
      (policy.backoff.delayFor (Nat.min (d.taken.fire.refireCount + 1) Backoff.maxAttempt)))
    (hmore : policy.maxRetries < 0 ∨ (d.taken.fire.refireCount : Int) < policy.maxRetries)
    {due : Instant} (hshift : now.shift? (policy.backoff.delayFor
      (Nat.min (d.taken.fire.refireCount + 1) Backoff.maxAttempt)).nanos = some due) :
    Stage policy (t.land d (.dispatched (.error e)) now) x := by
  obtain ⟨p, n, earliest, ds, legs, hline, hfire, hdue, hnone, hstored⟩ :=
    stage.flying_of_open hd hopen
  have hcount : d.taken.fire.refireCount = n := by rw [hfire]
  have hkey : d.taken.fire.key = p.key := by rw [hfire]
  obtain ⟨hmem, hx⟩ := List.mem_filter.mp hd
  have hx : t.lineOf d.number = x := of_decide_eq_true hx
  have horderly : Orderly (t.record d.number (.dispatched (.error e)) now) := ho.record hmem
  have hnext : Scheduler.nextFire d.taken.fire d.taken.job.trigger (.dispatched (.error e)) now =
      .refire due := by
    have hdelay : (FireOutcome.dispatched (.error e)).delay? = some (policy.backoff.delayFor
        (Nat.min (d.taken.fire.refireCount + 1) Backoff.maxAttempt)) := by
      simp [FireOutcome.delay?, DispatchError.refireDelay, hrefire]
    rw [Scheduler.nextFire_of_delay hdelay, if_pos (Duration.isOffset_of_shift hshift), hshift]
  have hrefires : t.refires d.taken (.dispatched (.error e)) now :=
    refires_iff.mpr ⟨hkey ▸ hstored, due, hnext⟩
  obtain ⟨-, hno, -⟩ | ⟨-, ⟨due', hnext', heq⟩ | ⟨hno, -⟩⟩ :=
    ho.land_cases d (.dispatched (.error e)) now
  · exact absurd hrefires hno
  · rw [hnext] at hnext'
    cases hnext'
    rw [hcount] at hrefire hmore hshift
    have hdueNext := Instant.ofNanos?_eq_some_iff.mp hshift
    have longer : Legs policy (t.record d.number (.dispatched (.error e)) now).landings p (n + 1)
        due (ds ++ [d]) :=
      .snoc d (legs.mono (record_extends hopen)) hdue
        ⟨hfire, ⟨e, now, if_pos rfl, hrefire, hdueNext⟩, hmore⟩
    rw [← hline] at longer
    rw [heq, hx]
    exact .enqueue_next horderly longer hnone (by rw [hfire])
  · exact absurd hrefires hno

theorem Orderly.line_land (ho : Orderly t) (hd : d ∈ t.departures) :
    (t.land d outcome now).line x = t.line x := by
  have horderly : Orderly (t.record d.number outcome now) := ho.record hd
  obtain ⟨heq, -⟩ | ⟨-, ⟨due, -, heq⟩ | ⟨-, slot, -, heq⟩⟩ := ho.land_cases d outcome now
  · rw [heq]
    rfl
  · rw [heq, horderly.line_enqueue]
    rfl
  · rw [heq, horderly.line_enqueue]
    rfl

variable {harness : Harness σ}

/-- A fire of this line ends as a run of it can end. -/
theorem Stage.land_own (stage : Stage harness.policy t x) (ho : Orderly t) (hd : d ∈ t.line x)
    (hopen : t.landings.get? d.number = none)
    (hending : Ending harness t.scheduler.registry d.taken outcome)
    (quiet : Undisturbed (t.land d outcome now) x) :
    Stage harness.policy (t.land d outcome now) x := by
  have hmem : d ∈ t.departures := (List.mem_filter.mp hd).1
  have hd' : d ∈ (t.land d outcome now).line x := (ho.line_land hmem).symm ▸ hd
  have hlanded : (t.land d outcome now).landings.get? d.number = some (outcome, now) := if_pos rfl
  cases hending with
  | noHandler unknown =>
    have hhandler := (ho.gone d hmem).2.2
    unfold Scheduler.hasHandler at hhandler
    rw [unknown] at hhandler
    cases hhandler
  | vetoed => exact absurd hlanded (quiet.passed d hd' now)
  | ran job fire host hattempt =>
    have hoptions := final_or_refire (run_gives harness job fire host)
    revert quiet hd' hlanded hoptions
    generalize (harness.run job fire host).1 = result
    rw [hattempt]
    rintro quiet hd' hlanded (hfinal | ⟨e, rfl, hrefire, hmore⟩)
    · exact stage.land_final ho hd hopen hfinal
    · have hdelay : (FireOutcome.dispatched (.error e)).delay? =
          some (harness.policy.backoff.delayFor
            (Nat.min (d.taken.fire.refireCount + 1) Backoff.maxAttempt)) := by
        simp [FireOutcome.delay?, DispatchError.refireDelay, hrefire]
      obtain ⟨due, hshift⟩ :=
        Option.isSome_iff_exists.mp (quiet.representable d hd' _ now _ hlanded hdelay)
      exact stage.land_refire ho hd hopen hrefire hmore hshift

theorem Undisturbed.of_extends {t' : Traffic η ν} (quiet : Undisturbed t' x)
    (hline : ∀ d ∈ t.line x, d ∈ t'.line x)
    (hlandings : ∀ n v, t.landings.get? n = some v → t'.landings.get? n = some v)
    (hremovals : ∀ r ∈ t.removals, r ∈ t'.removals) : Undisturbed t x where
  kept d hd r hr := quiet.kept d (hline d hd) r (hremovals r hr)
  passed d hd now h := quiet.passed d (hline d hd) now (hlandings _ _ h)
  representable d hd outcome now delay h :=
    quiet.representable d (hline d hd) outcome now delay (hlandings _ _ h)

/-- No step disturbs a line without a trace, and a line that is not disturbed keeps its shape. -/
theorem Effect.stage {t' : Traffic η ν} (h : Effect harness t t') (ho : Orderly t)
    (ih : Undisturbed t x → Stage harness.policy t x) (quiet : Undisturbed t' x) :
    Stage harness.policy t' x := by
  cases h with
  | idle => exact ih quiet
  | listened listeners matchers =>
    have quiet' : Undisturbed t x := quiet.of_extends (fun _ h => h) (fun _ _ h => h) fun _ h => h
    exact (ih quiet').frame rfl (fun _ => Iff.rfl) (fun _ _ h => h) (fun _ _ h => h) fun _ _ h => h
  | stored hhandler =>
    have quiet' : Undisturbed t x := quiet.of_extends (fun _ h => h) (fun _ _ h => h) fun _ h => h
    exact (ih quiet').store _ _
  | @queued due fire hstored hfirst hmanual =>
    have hline := ho.line_enqueue (t.scheduler.seq + 1) due fire x
    have quiet' : Undisturbed t x :=
      quiet.of_extends (fun _ h => hline ▸ h) (fun _ _ h => h) fun _ h => h
    exact (ih quiet').enqueue_own ho hfirst
  | @scheduled definition trigger hhandler hnew =>
    have hstore : Orderly (t.store definition.key ⟨definition, some trigger⟩) := ho.store hhandler
    have hline := hstore.line_enqueue (t.scheduler.seq + 1) trigger.schedule.firstFire
      (Scheduler.firstFire definition.key trigger) x
    have quiet' : Undisturbed t x :=
      quiet.of_extends (fun _ h => hline ▸ h) (fun _ _ h => h) fun _ h => h
    exact ((ih quiet').store _ _).enqueue_own hstore rfl
  | deleted key =>
    have quiet' : Undisturbed t x :=
      quiet.of_extends (fun _ h => h) (fun _ _ h => h) fun _ => List.mem_cons_of_mem _
    refine (ih quiet').delete fun d hd hkey => ?_
    have hbefore := quiet.kept d hd (key, t.scheduler.seq) List.mem_cons_self hkey.symm
    exact absurd (ho.line_le_seq hd) (Nat.not_le.mpr hbefore)
  | departed hqueue hdue hjob =>
    have quiet' : Undisturbed t x :=
      quiet.of_extends (fun d hd => by
        obtain ⟨hmem, hx⟩ := List.mem_filter.mp hd
        exact List.mem_filter.mpr ⟨List.mem_append_left _ hmem, hx⟩) (fun _ _ h => h) fun _ h => h
    exact (ih quiet').depart ho hqueue hdue rfl rfl
  | @landed d outcome now hd hopen hending =>
    have hline : (t.land d outcome now).line x = t.line x := ho.line_land hd
    have quiet' : Undisturbed t x :=
      quiet.of_extends (fun _ h => hline ▸ h) (record_extends hopen) fun _ h => h
    by_cases hx : t.lineOf d.number = x
    · have hline : d ∈ t.line x := List.mem_filter.mpr ⟨hd, decide_eq_true hx⟩
      exact (ih quiet').land_own ho hline hopen hending quiet
    · exact (ih quiet').land_other ho hd hopen hx

theorem Reachable.stage (h : Reachable harness t) (x : Nat) (quiet : Undisturbed t x) :
    Stage harness.policy t x := by
  induction h with
  | start registry listeners matchers => exact .unused rfl fun q hq => by cases hq.1
  | next hreach step ih =>
    exact (step.effect hreach.orderly).stage hreach.orderly ih quiet

end

end

end Traffic

end JobEngine
