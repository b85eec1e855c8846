import JobEngine.Proofs.Refires
/-! What every logical fire comes to, whatever else goes on in the scheduler: one attempt after the
other, counted from zero, until the last. -/

namespace JobEngine

variable {σ η ν : Type}

namespace Traffic

abbrev delayAfter (policy : RetryPolicy) (attempt : Nat) : Duration :=
  policy.backoff.delayFor (attempt + 1)

/-- How the last attempt of a line stands. -/
inductive Last (policy : RetryPolicy) (t : Traffic η ν) (x : Nat) (d : Departure ν) : Prop where
  | running (hopen : t.landings.get? d.number = none) (hnone : ∀ q, ¬t.Waits x q)
  | refires {e now} (q : QueuedFire)
      (hlanded : t.landings.get? d.number = some (.dispatched (.error e), now))
      (hrefire : e.aftermath = .refire (delayAfter policy d.taken.fire.refireCount))
      (hq : t.Waits x q) (honly : ∀ q', t.Waits x q' → q' = q)
      (hfire : q.fire = { d.taken.fire with refireCount := d.taken.fire.refireCount + 1 })
      (hdue : now.nanos + (delayAfter policy d.taken.fire.refireCount).nanos ≤ q.due.nanos)
  | ended {outcome now} (hlanded : t.landings.get? d.number = some (outcome, now))
      (hfinal : Final policy d.taken.fire.refireCount outcome) (hnone : ∀ q, ¬t.Waits x q)

/-- The attempts of a logical fire, one after the other. -/
structure Chain (policy : RetryPolicy) (t : Traffic η ν) (x : Nat) : Prop where
  counted : ∃ p : PendingFire, ∀ i d, (t.line x)[i]? = some d →
    d.taken.fire = { p with refireCount := i }
  refired : ∀ i d d', (t.line x)[i]? = some d → (t.line x)[i + 1]? = some d' → ∃ e now,
    t.landings.get? d.number = some (.dispatched (.error e), now) ∧
    e.aftermath = .refire (delayAfter policy i) ∧
    now.nanos + (delayAfter policy i).nanos ≤ d'.time.nanos
  last : ∀ d, (t.line x).getLast? = some d → Last policy t x d
  limited : 0 ≤ policy.maxRetries → ∀ d ∈ t.line x,
    (d.taken.fire.refireCount : Int) ≤ policy.maxRetries
  exhausted : ∀ d ∈ t.line x, ∀ e now,
    t.landings.get? d.number = some (.dispatched (.error e), now) → e.aftermath = .exhausted →
      0 ≤ policy.maxRetries ∧ (d.taken.fire.refireCount : Int) = policy.maxRetries

section

variable {policy : RetryPolicy} {landings : Assoc Nat (FireOutcome × Instant)} {p : PendingFire}
variable {n x : Nat} {due next : Instant} {ds : List (Departure ν)} {d : Departure ν}
variable {t : Traffic η ν}

theorem Leg.asked_counted (leg : Leg policy landings p n d next) (hn : n + 1 < twoTo 32) :
    ∃ e now, landings.get? d.number = some (.dispatched (.error e), now) ∧
      e.aftermath = .refire (delayAfter policy n) ∧
      next.nanos = now.nanos + (delayAfter policy n).nanos := by
  have hmin : Nat.min (n + 1) Backoff.maxAttempt = n + 1 := Nat.min_eq_left (by
    unfold Backoff.maxAttempt
    omega)
  have asked := leg.asked
  rw [hmin] at asked
  exact asked

theorem Leg.limited (leg : Leg policy landings p n d next) (hlimit : 0 ≤ policy.maxRetries) :
    (n : Int) < policy.maxRetries := leg.more.resolve_left (Int.not_lt.mpr hlimit)

theorem Legs.count_le (legs : Legs policy landings p n due ds) (hlimit : 0 ≤ policy.maxRetries) :
    (n : Int) ≤ policy.maxRetries := by
  cases legs with
  | nil => exact hlimit
  | snoc d legs hdue leg => exact Int.add_one_le_of_lt (leg.limited hlimit)

theorem Legs.limited (legs : Legs policy landings p n due ds) (hlimit : 0 ≤ policy.maxRetries)
    (hd : d ∈ ds) : (d.taken.fire.refireCount : Int) ≤ policy.maxRetries := by
  obtain ⟨i, next, leg⟩ := legs.exists_leg hd
  have hcount : d.taken.fire.refireCount = i := by rw [leg.fire]
  rw [hcount]
  exact Int.le_of_lt (leg.limited hlimit)

theorem Legs.not_exhausted (legs : Legs policy landings p n due ds) (hd : d ∈ ds)
    {e : DispatchError} {now : Instant}
    (hlanded : landings.get? d.number = some (.dispatched (.error e), now)) :
    e.aftermath ≠ .exhausted := by
  obtain ⟨i, next, leg⟩ := legs.exists_leg hd
  obtain ⟨e', now', hlanded', hrefire, -⟩ := leg.asked
  rw [hlanded] at hlanded'
  cases hlanded'
  rw [hrefire]
  exact Aftermath.noConfusion

theorem getElem?_concat_cases {d₀ : Departure ν} {i : Nat} (h : (ds ++ [d₀])[i]? = some d) :
    ds[i]? = some d ∨ i = ds.length ∧ d = d₀ := by
  rw [List.getElem?_append] at h
  split at h
  · exact .inl h
  · right
    obtain ⟨hi, hd⟩ := List.getElem?_eq_some_iff.mp h
    rw [List.length_singleton] at hi
    refine ⟨by omega, ?_⟩
    rw [← hd, List.getElem_singleton]

theorem chain_of_legs (legs : Legs policy t.landings p n due (t.line x))
    (few : (t.line x).length < twoTo 32)
    (last : ∀ k d, n = k + 1 → (t.line x)[k]? = some d → Leg policy t.landings p k d due →
      Last policy t x d) : Chain policy t x where
  counted := by
    refine ⟨p, fun i d hd => ?_⟩
    obtain ⟨next, leg, -⟩ := legs.leg hd
    exact leg.fire
  refired i d d' hd hd' := by
    obtain ⟨next, leg, hlater, -⟩ := legs.leg hd
    have hi := (List.getElem?_eq_some_iff.mp hd').1
    obtain ⟨e, now, hlanded, hrefire, hnext⟩ := leg.asked_counted (Nat.lt_trans hi few)
    exact ⟨e, now, hlanded, hrefire, hnext ▸ hlater d' hd'⟩
  last d hd := by
    rw [List.getLast?_eq_getElem?] at hd
    have hn := legs.length_eq
    have hpos := (List.getElem?_eq_some_iff.mp hd).1
    obtain ⟨next, leg, -, hlast⟩ := legs.leg hd
    have hk : (t.line x).length - 1 + 1 = n := by omega
    exact last _ d hk.symm hd (hlast hk ▸ leg)
  limited hlimit _ hd := legs.limited hlimit hd
  exhausted _ hd _ _ hlanded hexhausted := absurd hexhausted (legs.not_exhausted hd hlanded)

/-- The attempts of a line whose last one has been taken and asked for no other. -/
theorem chain_of_concat {d₀ : Departure ν} (legs : Legs policy t.landings p n due ds)
    (hline : t.line x = ds ++ [d₀]) (few : (t.line x).length < twoTo 32)
    (hfire : d₀.taken.fire = { p with refireCount := n }) (hdue : due ≤ d₀.time)
    (last : Last policy t x d₀)
    (hfinal : ∀ outcome now, t.landings.get? d₀.number = some (outcome, now) →
      Final policy n outcome) : Chain policy t x where
  counted := by
    refine ⟨p, fun i d hd => ?_⟩
    rw [hline] at hd
    obtain hd | ⟨rfl, rfl⟩ := getElem?_concat_cases hd
    · obtain ⟨next, leg, -⟩ := legs.leg hd
      exact leg.fire
    · rw [legs.length_eq, hfire]
  refired i d d' hd hd' := by
    have hi : i + 1 < (t.line x).length := (List.getElem?_eq_some_iff.mp hd').1
    rw [hline] at hd hd'
    have hlength : (t.line x).length = ds.length + 1 := by rw [hline, List.length_append]; rfl
    obtain hd | ⟨hlast, -⟩ := getElem?_concat_cases hd
    · obtain ⟨next, leg, hlater, hend⟩ := legs.leg hd
      obtain ⟨e, now, hlanded, hrefire, hnext⟩ := leg.asked_counted (Nat.lt_trans hi few)
      refine ⟨e, now, hlanded, hrefire, hnext ▸ ?_⟩
      obtain hd' | ⟨hlast, rfl⟩ := getElem?_concat_cases hd'
      · exact hlater d' hd'
      · exact hend (hlast.trans legs.length_eq) ▸ hdue
    · omega
  last d hd := by
    rw [hline, List.getLast?_concat] at hd
    cases hd
    exact last
  limited hlimit d hd := by
    rw [hline] at hd
    rcases List.mem_append.mp hd with hd | hd
    · exact legs.limited hlimit hd
    · rw [List.mem_singleton.mp hd, hfire]
      exact legs.count_le hlimit
  exhausted d hd e now hlanded hexhausted := by
    rw [hline] at hd
    rcases List.mem_append.mp hd with hd | hd
    · exact absurd hexhausted (legs.not_exhausted hd hlanded)
    · rw [List.mem_singleton.mp hd] at hlanded ⊢
      rw [hfire]
      cases hfinal _ _ hlanded with
      | fatal _ h =>
        rw [hexhausted] at h
        cases h
      | exhausted _ h hlimit hused =>
        exact ⟨hlimit, Int.le_antisymm (legs.count_le hlimit) hused⟩

theorem chain_of_nil (hline : t.line x = []) : Chain policy t x where
  counted := by
    refine ⟨⟨default, 0, Dict.empty, default, .manual⟩, fun i d hd => ?_⟩
    rw [hline, List.getElem?_nil] at hd
    cases hd
  refired i d d' hd := by
    rw [hline, List.getElem?_nil] at hd
    cases hd
  last d hd := by
    rw [hline] at hd
    cases hd
  limited hlimit d hd := by
    rw [hline] at hd
    cases hd
  exhausted d hd := by
    rw [hline] at hd
    cases hd

theorem Stage.chain (stage : Stage policy t x) (few : (t.line x).length < twoTo 32) :
    Chain policy t x := by
  cases stage with
  | unused hline hnone => exact chain_of_nil hline
  | @waiting p n due q legs hq honly hfire hdue =>
    refine chain_of_legs legs few fun k d hn hd leg => ?_
    have hk := (List.getElem?_eq_some_iff.mp hd).1
    obtain ⟨e, now, hlanded, hrefire, hnext⟩ := leg.asked_counted (Nat.lt_of_le_of_lt hk few)
    have hcount : d.taken.fire.refireCount = k := by rw [leg.fire]
    rw [← hcount] at hrefire hnext
    refine .refires q hlanded hrefire hq honly ?_ (hnext ▸ hdue)
    rw [hfire, hn, leg.fire]
  | flying legs hline hfire hdue hopen hnone hstored =>
    refine chain_of_concat legs hline few hfire hdue (.running hopen hnone) fun _ _ h => ?_
    rw [hopen] at h
    cases h
  | @ended p n due ds d outcome now legs hline hfire hdue hlanded hfinal hnone =>
    have hcount : d.taken.fire.refireCount = n := by rw [hfire]
    refine chain_of_concat legs hline few hfire hdue (.ended hlanded (hcount ▸ hfinal) hnone) ?_
    intro outcome' now' h
    rw [hlanded] at h
    cases h
    exact hfinal

end

/-- Whatever else goes on, and in whatever order, the attempts of every logical fire form a chain,
as long as nothing disturbs them and they can be counted. -/
theorem attempts_form_chain {harness : Harness σ} {t : Traffic η ν} (h : Reachable harness t)
    (x : Nat) (quiet : Undisturbed t x) (few : (t.line x).length < twoTo 32) :
    Chain harness.policy t x := (h.stage x quiet).chain few

def onceMore : Harness Unit where
  policy := { maxRetries := 1 }
  bus := .ofPublish fun _ => pure (.ok ())

def report : JobDefinition := { key := ⟨"daily"⟩, kind := "report" }

def vacant : Traffic Unit Unit := { scheduler := { registry := [("report", ())] } }

def busy (attempt : Nat) : FireOutcome :=
  let job : Job Unit := { name := "report", body := fun _ => Body.fail (.conflict "busy") }
  let fire : FireContext :=
    { definition := report, data := Dict.empty, refireCount := attempt
      scheduledFor := .epoch, firedAt := .epoch }
  .dispatched (onceMore.run job fire { clock := .epoch, app := () }).1

theorem gives_up_after_refire : ∃ t : Traffic Unit Unit, Reachable onceMore t ∧
    (t.line 1).length = 2 ∧ t.scheduler.queue = [] ∧ Chain onceMore.policy t 1 := by
  let start : Traffic Unit Unit := { scheduler := { registry := [("report", ())] } }
  have opened : Reachable onceMore start := .start [("report", ())] [] []
  have stored := opened.next (.scheduleJob report { schedule := .once .epoch } rfl)
  have first := stored.next (.depart .epoch rfl rfl)
  have refired :=
    first.next (.land (busy 0) .epoch List.mem_cons_self rfl (.ran _ _ _ rfl))
  have second := refired.next (.depart .epoch rfl rfl)
  have gone := second.next (.land (busy 1) .epoch
    (List.mem_cons_of_mem _ List.mem_cons_self) rfl (.ran _ _ _ rfl))
  refine ⟨_, gone, rfl, rfl, attempts_form_chain gone 1 ?_ (by decide)⟩
  constructor
  · exact fun _ _ _ hr => absurd hr List.not_mem_nil
  · intro d hd now
    obtain rfl | hd := List.mem_cons.mp hd
    · exact nofun
    · rw [List.mem_singleton.mp hd]
      exact nofun
  · intro d hd outcome now delay hlanded hdelay
    obtain rfl | hd := List.mem_cons.mp hd
    · cases hlanded
      cases hdelay
      rfl
    · rw [List.mem_singleton.mp hd] at hlanded
      cases hlanded
      cases hdelay

end Traffic

end JobEngine
