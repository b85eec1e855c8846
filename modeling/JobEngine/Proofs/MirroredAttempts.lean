import JobEngine.Proofs.AttemptMarks
/-! The ledger mirrors every attempt, as long as the status listener is the only one that sees it.
What a fire marks when it is taken it takes back when it lands, whatever became of it, and between
the two anyone may cancel the job. -/

namespace JobEngine

open MemoryLedger (Answers)

variable {σ η ν : Type}

/-- A host and the fires in the air. -/
structure World (σ η ν : Type) where
  host : Host σ
  air : List (Sortie η ν)

namespace World

variable {p : Plant σ η ν} {w w' start : World σ η ν}

def launch (p : Plant σ η ν) (w : World σ η ν) : World σ η ν where
  host := (p.engine.launch w.host).2
  air :=
    match (p.engine.launch w.host).1 with
    | .airborne flight => Sortie.takeOff (p.ledger.get w.host.app) flight w.air
    | _ => w.air

/-- One thing that happens in the world. Fires take off when they are seen by the status listener
and no other, and land in any order, however their runs ended. -/
inductive Step (p : Plant σ η ν) : World σ η ν → World σ η ν → Prop where
  | yield {α : Type} {a : Act σ α} (w : World σ η ν) (ha : p.Yields w.air a) :
      Step p w { w with host := (a w.host).2 }
  | launch (w : World σ η ν) (hsole : p.Sole (p.scheduler.get w.host.app)) : Step p w (w.launch p)
  | land {front back : List (Sortie η ν)} (host : Host σ) (x : Sortie η ν)
      (result : Except DispatchError Unit) :
      Step p { host, air := front ++ x :: back }
        { host := (p.engine.land x.flight result host).2
          air := (front ++ back).map (Sortie.besideLanding x.key) }

inductive Reaches (p : Plant σ η ν) (start : World σ η ν) : World σ η ν → Prop where
  | start : Reaches p start start
  | next {mid last : World σ η ν} : Reaches p start mid → Step p mid last → Reaches p start last

/-- What holds of the world at all times. -/
structure Sound (p : Plant σ η ν) (w : World σ η ν) : Prop where
  mirrors : Mirrors w.air (p.scheduler.get w.host.app) (p.ledger.get w.host.app)
  attended : ∀ x ∈ w.air, p.Attended x.flight

theorem Sound.launch (h : Sound p w) (hsole : p.Sole (p.scheduler.get w.host.app)) :
    Sound p (w.launch p) := by
  obtain ⟨hfiled, hlaunched⟩ := p.launch_effect w.host hsole h.mirrors.filed
  unfold World.launch
  generalize p.engine.launch w.host = launched at hfiled hlaunched ⊢
  obtain ⟨r, host⟩ := launched
  have hrefiled := h.mirrors.refile hfiled
  generalize hl : p.ledger.get host.app = l at hlaunched
  cases hlaunched with
  | idle => exact ⟨hl ▸ hrefiled, h.attended⟩
  | grounded taken hunflown => exact ⟨hl ▸ hrefiled, h.attended⟩
  | airborne attended marking =>
    refine ⟨hl ▸ hrefiled.takeOff marking, fun x hx => ?_⟩
    obtain rfl | hx := List.mem_cons.mp hx
    · exact attended
    · obtain ⟨y, hy, rfl⟩ := List.mem_map.mp hx
      rw [Sortie.flight_besideStart]
      exact h.attended y hy

theorem Sound.landed (h : Sound p w) {x : Sortie η ν} (hx : x ∈ w.air)
    (result : Except DispatchError Unit) :
    (p.scheduler.get (p.engine.land x.flight result w.host).2.app).Filed ∧
      (∃ answer, Answers (p.ledger.get w.host.app) x.key (StatusListener.updateFor result) answer
        (p.ledger.get (p.engine.land x.flight result w.host).2.app)) ∧
      ((p.engine.land x.flight result w.host).1 = .crashed ∨
        (p.engine.land x.flight result w.host).1 =
          .fired { key := x.key, attempt := x.attempt, outcome := .dispatched result }) :=
  Plant.land_effect (h.attended x hx) result (p.ledger.get w.host.app) w.host
    ⟨h.mirrors.filed, rfl⟩

theorem Sound.land {front back : List (Sortie η ν)} {host : Host σ} {x : Sortie η ν}
    (h : Sound p { host, air := front ++ x :: back }) (result : Except DispatchError Unit) :
    Sound p
      { host := (p.engine.land x.flight result host).2
        air := (front ++ back).map (Sortie.besideLanding x.key) } := by
  obtain ⟨hfiled, ⟨answer, hanswer⟩, -⟩ := h.landed (x := x) (by simp) result
  refine ⟨(h.mirrors.land hanswer).refile hfiled, fun y hy => ?_⟩
  obtain ⟨z, hz, rfl⟩ := List.mem_map.mp hy
  rw [Sortie.flight_besideLanding]
  refine h.attended z ?_
  simp only [List.mem_append, List.mem_cons] at hz ⊢
  exact hz.imp_right .inr

theorem Step.sound (step : Step p w w') (h : Sound p w) : Sound p w' := by
  cases step with
  | yield w ha => exact ⟨ha.keeps w.host h.mirrors, h.attended⟩
  | launch w hsole => exact h.launch hsole
  | land host x result => exact h.land result

theorem Reaches.sound (run : Reaches p start w) (h : Sound p start) : Sound p w := by
  induction run with
  | start => exact h
  | next _ step ih => exact step.sound ih

theorem yields_settle {air : List (Sortie η ν)} (taken : TakenFire ν) (outcome : FireOutcome) :
    p.Yields air (p.engine.settle taken outcome) := by
  have hfollow : ∀ now, p.Yields air (p.engine.scheduler.run fun s =>
      ((s.afterFire taken.fire taken.job.trigger outcome now).isSome,
        (s.afterFire taken.fire taken.job.trigger outcome now).getD s)) :=
    fun now => .schedule fun s hs => hs.afterFire _ _ _ now
  have hafter : p.Yields air (p.engine.afterFire taken.fire taken.job.trigger outcome) := by
    refine (Site.Yields.still fun _ => rfl).bind fun now =>
      (Site.Yields.still fun _ => rfl).bind fun kept => ?_
    cases kept with
    | false => exact hfollow now
    | true =>
      simp only [↓reduceIte]
      split
      · exact (Site.Yields.still fun _ => rfl).bind fun _ => hfollow now
      · exact hfollow now
  apply hafter.bind
  intro kept
  cases kept <;> exact .pure _

def fireNext (p : Plant σ η ν) (w : World σ η ν) : World σ η ν where
  host := (p.engine.fireNext w.host).2
  air :=
    match (p.engine.launch w.host).1 with
    | .airborne flight => (w.air.map (Sortie.besideStart flight)).map
        (Sortie.besideLanding flight.taken.fire.key)
    | _ => w.air

def Polite (p : Plant σ η ν) (w : World σ η ν) : Prop :=
  ∀ flight, p.harness.MadeOf
    (p.Yields (Sortie.takeOff (p.ledger.get w.host.app) flight w.air)) (p.job flight.handler)

theorem Reaches.fireNext (run : Reaches p start w) (hsole : p.Sole (p.scheduler.get w.host.app))
    (polite : Polite p w) : Reaches p start (w.fireNext p) := by
  have launched : Reaches p start (w.launch p) := run.next (.launch w hsole)
  unfold World.launch at launched
  unfold World.fireNext
  rw [Plant.fireNext_eq]
  generalize p.engine.launch w.host = r at launched ⊢
  obtain ⟨r, host⟩ := r
  cases r with
  | idle => exact launched
  | grounded taken outcome => exact launched.next (.yield _ (yields_settle taken outcome))
  | airborne flight =>
    let body := p.harness.run (p.job flight.handler) flight.context
    let x := Sortie.first (p.ledger.get w.host.app) flight
    have ran : Reaches p start
        { host := (body host).2, air := [] ++ x :: w.air.map (Sortie.besideStart flight) } :=
      launched.next (.yield _ ((Site.Yields.composes _ _).run (polite flight) flight.context))
    exact ran.next (.land (body host).2 x (body host).1)

/-- The row of a job that was fired as a whole says how that went. -/
theorem Sound.fireNext (sound : Sound p w) (hsole : p.Sole (p.scheduler.get w.host.app))
    (polite : Polite p w) {key : JobKey} {attempt : Nat} {result : Except DispatchError Unit}
    {row : JobStatus}
    (hreport : (p.engine.fireNext w.host).1 =
      .fired { key, attempt, outcome := .dispatched result })
    (hrow : (p.ledger.get w.host.app).get? key = some row) :
    ∃ told, (p.ledger.get (p.engine.fireNext w.host).2.app).get? key = some told ∧
      (told.state = .cancelled ∨ Records told result ∧ told.attempts = attempt ∧
        (told.state = .pending → told.finishedAt = none)) := by
  have launched := sound.launch hsole
  obtain ⟨-, hlaunched⟩ := p.launch_effect w.host hsole sound.mirrors.filed
  unfold World.launch at launched
  rw [Plant.fireNext_eq] at hreport ⊢
  generalize p.engine.launch w.host = r at launched hlaunched hreport ⊢
  obtain ⟨r, host⟩ := r
  generalize p.ledger.get host.app = l at hlaunched
  cases hlaunched with
  | idle => cases hreport
  | grounded taken hunflown =>
    cases Engine.settle_report hreport
    exact absurd rfl (hunflown result)
  | @airborne flight l attended marking =>
    let body := p.harness.run (p.job flight.handler) flight.context
    let x := Sortie.first (p.ledger.get w.host.app) flight
    have ran :
        Sound p { host := (body host).2, air := x :: w.air.map (Sortie.besideStart flight) } :=
      (Step.yield { host, air := Sortie.takeOff (p.ledger.get w.host.app) flight w.air }
        ((Site.Yields.composes _ _).run (polite flight) flight.context)).sound launched
    obtain ⟨-, ⟨answer, hanswer⟩, hfired⟩ :=
      ran.landed (x := x) List.mem_cons_self (body host).1
    obtain hcrashed | hfired := hfired
    · cases hcrashed.symm.trans hreport
    · cases hfired.symm.trans hreport
      have hrecorded : x.recorded := Option.isSome_iff_exists.mpr ⟨row, hrow⟩
      obtain ⟨before, -, ⟨hcancelled, hsame⟩ | ⟨-, told, htold, hrecords, hattempts, hopen⟩⟩ :=
        ran.mirrors.mirrored List.mem_cons_self hrecorded hanswer
      · exact ⟨before, hsame, .inl hcancelled⟩
      · exact ⟨told, htold, .inr ⟨hrecords, hattempts, hopen rfl⟩⟩

/-- A fire that takes off marks the row of its job, if there is one, and no other row is touched. -/
theorem launched_rows {l l' : MemoryLedger} {r : Launch η ν} (h : p.Launched l r l') :
    (∀ key, (∀ flight, r = .airborne flight → flight.taken.fire.key ≠ key) →
      l'.get? key = l.get? key) ∧
    ∀ flight, r = .airborne flight → (l.get? flight.taken.fire.key).isSome →
      ∃ row, l'.get? flight.taken.fire.key = some row ∧ row.state = .running ∧
        row.attempts = flight.taken.fire.refireCount := by
  cases h with
  | idle =>
    refine ⟨fun _ _ => rfl, fun flight hflight => ?_⟩
    cases hflight
  | grounded taken hunflown =>
    refine ⟨fun _ _ => rfl, fun flight hflight => ?_⟩
    cases hflight
  | @airborne flight l' attended marking =>
    cases marking with
    | unknown hnone =>
      refine ⟨fun _ _ => rfl, fun flight hflight hrow => ?_⟩
      cases hflight
      rw [hnone] at hrow
      cases hrow
    | @marked row moved now hrow hmoved =>
      refine ⟨fun key hkey => ?_, fun flight hflight _ => ?_⟩
      · exact Assoc.get?_put_of_ne l.rows moved (hkey flight rfl)
      · cases hflight
        obtain ⟨-, hstate, -, hattempts, -⟩ := MemoryLedger.apply_ok hmoved
        exact ⟨moved, Assoc.get?_put_self l.rows _ moved, hstate, hattempts⟩

private theorem sound_start {host : Host σ} (hjobs : (p.scheduler.get host.app).jobs = [])
    (hrows : (p.ledger.get host.app).rows = []) : Sound p { host, air := [] } where
  mirrors :=
    { filed := by simp [Scheduler.Filed, hjobs]
      own := by simp [MemoryLedger.get?, hrows]
      flying := by simp [MemoryLedger.get?, hrows]
      marked := by simp }
  attended := by simp

/-- The ledger mirrors every attempt. No row is marked as running when no fire is in the air. A fire
marks the row of its job when it takes off, and when it lands the row says how the run ended, or
still that the job was cancelled; rows of other jobs are not touched. The attempt that the row
counts is that of the last fire of the job to take off, which is the one that is reported when no
other did meanwhile. -/
theorem ledger_mirrors_attempts {host : Host σ} (hjobs : (p.scheduler.get host.app).jobs = [])
    (hrows : (p.ledger.get host.app).rows = []) (run : Reaches p { host, air := [] } w) :
    (w.air = [] → ∀ key row, (p.ledger.get w.host.app).get? key = some row →
      row.state ≠ .running) ∧
    (p.Sole (p.scheduler.get w.host.app) →
      let before := p.ledger.get w.host.app
      let launched := p.engine.launch w.host
      let after := p.ledger.get launched.2.app
      (∀ key, (∀ flight, launched.1 = .airborne flight → flight.taken.fire.key ≠ key) →
        after.get? key = before.get? key) ∧
      ∀ flight, launched.1 = .airborne flight → (before.get? flight.taken.fire.key).isSome →
        ∃ row, after.get? flight.taken.fire.key = some row ∧ row.state = .running ∧
          row.attempts = flight.taken.fire.refireCount) ∧
    (∀ front x back result, w.air = front ++ x :: back →
      let before := p.ledger.get w.host.app
      let landed := p.engine.land x.flight result w.host
      let after := p.ledger.get landed.2.app
      (landed.1 = .crashed ∨ landed.1 =
        .fired { key := x.key, attempt := x.attempt, outcome := .dispatched result }) ∧
      (∀ key, x.key ≠ key → after.get? key = before.get? key) ∧
      (x.recorded → x.Mirrored result before after)) ∧
    (p.Sole (p.scheduler.get w.host.app) → Polite p w →
      Reaches p { host, air := [] } (w.fireNext p) ∧
      ∀ key attempt result row, (p.engine.fireNext w.host).1 =
          .fired { key, attempt, outcome := .dispatched result } →
        (p.ledger.get w.host.app).get? key = some row →
        ∃ told, (p.ledger.get (p.engine.fireNext w.host).2.app).get? key = some told ∧
          (told.state = .cancelled ∨ Records told result ∧ told.attempts = attempt ∧
            (told.state = .pending → told.finishedAt = none))) := by
  have hsound : Sound p w := run.sound (sound_start hjobs hrows)
  refine ⟨fun hair key row hrow hrunning => ?_, fun hsole => ?_, fun front x back result hair => ?_,
    fun hsole polite => ⟨run.fireNext hsole polite, fun key attempt result row hreport hrow => ?_⟩⟩
  · obtain ⟨x, hx, -⟩ := hsound.mirrors.flying key row hrow hrunning
    rw [hair] at hx
    cases hx
  · exact launched_rows (p.launch_effect w.host hsole hsound.mirrors.filed).2
  · have hx : x ∈ w.air := by simp [hair]
    obtain ⟨-, ⟨answer, hanswer⟩, hreport⟩ := hsound.landed hx result
    intro before landed after
    refine ⟨hreport, fun key hkey => ?_, fun hrecorded => ?_⟩
    · exact hanswer.get?_of_ne hkey
    · exact hsound.mirrors.mirrored hx hrecorded hanswer
  · exact hsound.fireNext hsole polite hreport hrow

def flaky : Plant (Scheduler Unit Unit × MemoryLedger) Unit Unit :=
  { Plant.retrying with
    job := fun _ =>
      { name := "report"
        body := fun ctx => if ctx.run.attempt = 0 then Body.fail (.conflict "busy") else pure () } }

def firstAttempt : World (Scheduler Unit Unit × MemoryLedger) Unit Unit :=
  launch flaky { host := Plant.registered, air := [] }

def refiredAt (key : JobKey) (attempt : Nat) : FireTry → Bool
  | .fired report => report.key = key && report.attempt = attempt && report.refired
  | _ => false

theorem of_refiredAt {key : JobKey} {attempt : Nat} {r : FireTry} (h : refiredAt key attempt r) :
    ∃ e, r = .fired { key, attempt, outcome := .dispatched (.error e) } := by
  cases r with
  | idle => cases h
  | crashed => cases h
  | fired report =>
    obtain ⟨rkey, rattempt, outcome⟩ := report
    simp only [refiredAt, Bool.and_eq_true, decide_eq_true_eq] at h
    obtain ⟨⟨rfl, rfl⟩, hrefired⟩ := h
    cases outcome with
    | vetoed => cases hrefired
    | noHandler => cases hrefired
    | dispatched result =>
      cases result with
      | ok x => cases hrefired
      | error e => exact ⟨e, rfl⟩

theorem flaky_polite (w : World _ Unit Unit) : Polite flaky w := fun flight =>
  { enter := nofun
    leave := nofun
    begin := nofun
    finish := nofun
    abort := nofun
    publish := (Site.Yields.composes _ _).oneByOne (fun _ => .pure _) 0
    body := fun ctx => by
      change flaky.Yields _ (Body.execute
        (if ctx.run.attempt = 0 then Body.fail (.conflict "busy") else pure ()))
      split <;> exact .pure _ }

theorem flaky_sole {w : World (Scheduler Unit Unit × MemoryLedger) Unit Unit}
    (h : w.host.app.1.queue.head?.map (fun q => w.host.app.1.listenersFor q.fire.key) =
      some [(StatusListener.name, ())]) :
    flaky.Sole (flaky.scheduler.get w.host.app) := by
  intro q hq
  change w.host.app.1.queue.head? = some q at hq
  rw [hq] at h
  exact Option.some.inj h

theorem reaches_registered : Reaches flaky { host := Plant.opened, air := [] }
    { host := Plant.registered, air := [] } :=
  .next .start (.yield _ (.register Plant.report _ fun _ hx => absurd hx List.not_mem_nil))

/-- The row of that job mirrors whatever comes of the attempt. When the whole fire runs, the attempt
asks for another one, and the row has it. -/
theorem first_attempt_mirrored :
    (∃ x, firstAttempt.air = [x] ∧ x.recorded ∧ x.latest = 0 ∧ x.crossed = false ∧ ∀ result,
      x.Mirrored result firstAttempt.host.app.2
        (flaky.engine.land x.flight result firstAttempt.host).2.app.2) ∧
    ∃ e told, (flaky.engine.fireNext Plant.registered).1 =
        .fired { key := Plant.report.key, attempt := 0, outcome := .dispatched (.error e) } ∧
      (flaky.ledger.get (flaky.engine.fireNext Plant.registered).2.app).get?
        Plant.report.key = some told ∧
      (told.state = .cancelled ∨ Records told (.error e) ∧ told.attempts = 0 ∧
        (told.state = .pending → told.finishedAt = none)) := by
  have hsole := flaky_sole (w := { host := Plant.registered, air := [] }) (by decide +kernel)
  have run : Reaches flaky { host := Plant.opened, air := [] } firstAttempt :=
    reaches_registered.next (.launch _ hsole)
  constructor
  · have hair : (firstAttempt.air.map fun x => (x.recorded, x.latest, x.crossed)) =
        [(true, 0, false)] := rfl
    obtain ⟨x, hx, hflags⟩ := List.map_eq_singleton_iff.mp hair
    obtain ⟨hrecorded, hflags⟩ := Prod.mk.inj hflags
    obtain ⟨hlatest, hcrossed⟩ := Prod.mk.inj hflags
    refine ⟨x, hx, hrecorded, hlatest, hcrossed, fun result => ?_⟩
    exact ((ledger_mirrors_attempts rfl rfl run).2.2.1 [] x [] result hx).2.2 hrecorded
  · have hrefired : refiredAt Plant.report.key 0 (flaky.engine.fireNext Plant.registered).1 := by
      decide +kernel
    obtain ⟨e, hreport⟩ := of_refiredAt hrefired
    have hrow : (Plant.registered.app.2.get? Plant.report.key).isSome := by decide +kernel
    obtain ⟨row, hrow⟩ := Option.isSome_iff_exists.mp hrow
    obtain ⟨told, htold, hmirrored⟩ := ((ledger_mirrors_attempts rfl rfl
      reaches_registered).2.2.2 hsole (flaky_polite _)).2 _ _ _ row hreport hrow
    -- the host has to be spelled as in the goal, or the whole fire is run to compare them
    simp only at htold
    exact ⟨e, told, hreport, htold, hmirrored⟩

def waiting : World (Scheduler Unit Unit × MemoryLedger) Unit Unit :=
  let first := fireNext flaky { host := Plant.registered, air := [] }
  { first with host := (flaky.service.triggerNow Plant.report.key .empty first.host).2 }

def overlapping : World (Scheduler Unit Unit × MemoryLedger) Unit Unit :=
  launch flaky (launch flaky waiting)

def complete (p : Plant σ η ν) (x : Sortie η ν) : Act σ FireTry := do
  let result ← p.harness.run (p.job x.flight.handler) x.flight.context
  p.engine.land x.flight result

def succeededAt (key : JobKey) (attempt : Nat) : FireTry → Bool
  | .fired report => report.key = key && report.attempt = attempt && report.succeeded
  | _ => false

theorem of_succeededAt {key : JobKey} {attempt : Nat} {r : FireTry}
    (h : succeededAt key attempt r) :
    r = .fired { key, attempt, outcome := .dispatched (.ok ()) } := by
  cases r with
  | idle => cases h
  | crashed => cases h
  | fired report =>
    obtain ⟨rkey, rattempt, outcome⟩ := report
    simp only [succeededAt, Bool.and_eq_true, decide_eq_true_eq] at h
    obtain ⟨⟨rfl, rfl⟩, hsucceeded⟩ := h
    cases outcome with
    | vetoed => cases hsucceeded
    | noHandler => cases hsucceeded
    | dispatched result =>
      cases result with
      | ok x => rfl
      | error e => cases hsucceeded

/-- Two fires of one job are in the air. The older one succeeds and is reported as the second
attempt while the row counts the first; the newer one asks for another attempt, and the row says
that the job waits for it and has finished. -/
structure Blurred (w : World (Scheduler Unit Unit × MemoryLedger) Unit Unit)
    (x y : Sortie Unit Unit) : Prop where
  air : w.air = [y, x]
  recorded : x.recorded ∧ y.recorded
  reported : (complete flaky x w.host).1 =
    .fired { key := Plant.report.key, attempt := 1, outcome := .dispatched (.ok ()) }
  counted : ((complete flaky x w.host).2.app.2.get? Plant.report.key).map (·.attempts) = some 0
  refired : ∃ e, (complete flaky y (complete flaky x w.host).2).1 =
    .fired { key := Plant.report.key, attempt := 0, outcome := .dispatched (.error e) }
  finished : ((complete flaky y (complete flaky x w.host).2).2.app.2.get? Plant.report.key).map
    (fun row => (row.state, row.finishedAt.isSome)) = some (.pending, true)

def isBlurred (w : World (Scheduler Unit Unit × MemoryLedger) Unit Unit) : Bool :=
  match w.air with
  | [y, x] =>
    let second := complete flaky x w.host
    let byHand := complete flaky y second.2
    x.recorded && y.recorded && succeededAt Plant.report.key 1 second.1 &&
      (second.2.app.2.get? Plant.report.key).map (·.attempts) = some 0 &&
      refiredAt Plant.report.key 0 byHand.1 &&
      (byHand.2.app.2.get? Plant.report.key).map (fun row => (row.state, row.finishedAt.isSome)) =
        some (.pending, true)
  | _ => false

private theorem of_isBlurred {w : World (Scheduler Unit Unit × MemoryLedger) Unit Unit}
    (h : isBlurred w) : ∃ x y, Blurred w x y := by
  unfold isBlurred at h
  split at h
  next y x hair =>
    simp only [Bool.and_eq_true, decide_eq_true_eq] at h
    obtain ⟨⟨⟨⟨⟨hx, hy⟩, hreported⟩, hcounted⟩, hrefired⟩, hfinished⟩ := h
    exact ⟨x, y, hair, ⟨hx, hy⟩, of_succeededAt hreported, hcounted, of_refiredAt hrefired,
      hfinished⟩
  · cases h

theorem overlapping_fires_blurred : Reaches flaky { host := Plant.opened, air := [] } overlapping ∧
    ∃ x y, Blurred overlapping x y := by
  have hwaiting : Reaches flaky { host := Plant.opened, air := [] } waiting :=
    (reaches_registered.fireNext (flaky_sole (by decide +kernel)) (flaky_polite _)).next
      (.yield _ (.triggerNow Plant.report.key .empty))
  have hfirst := flaky_sole (w := waiting) (by decide +kernel)
  have hsecond := flaky_sole (w := launch flaky waiting) (by decide +kernel)
  refine ⟨(hwaiting.next (.launch waiting hfirst)).next (.launch _ hsecond), ?_⟩
  exact of_isBlurred (by decide +kernel)

end World

end JobEngine
