import JobEngine.Proofs.FiresInFlight
/-! What a fire leaves in the ledger when the status listener is the only one that sees it: the mark
that a launch makes on the row of the job, and what becomes of the row when the fire lands. -/

namespace JobEngine

open MemoryLedger (Answers)

variable {σ η ν : Type}

inductive MemoryLedger.Marking (l : MemoryLedger) (key : JobKey) (attempt : Nat) :
    MemoryLedger → Prop where
  | unknown (hnone : l.get? key = none) : Marking l key attempt l
  | marked {row moved : JobStatus} {now : Instant} (hrow : l.get? key = some row)
      (hmoved : (StatusUpdate.running attempt).apply row now = .ok moved) :
      Marking l key attempt { rows := l.rows.put key moved }

open MemoryLedger (Marking)

theorem StatusListener.updateFor_attempt (result : Except DispatchError Unit) :
    (updateFor result).attempt = none := by
  unfold updateFor
  split
  · rfl
  · split <;> rfl

theorem StatusListener.updateFor_state (result : Except DispatchError Unit) :
    (updateFor result).state ≠ .created ∧ (updateFor result).state ≠ .running ∧
      (updateFor result).state ≠ .cancelled := by
  unfold updateFor
  split
  · exact ⟨JobState.noConfusion, JobState.noConfusion, JobState.noConfusion⟩
  · split <;> exact ⟨JobState.noConfusion, JobState.noConfusion, JobState.noConfusion⟩

namespace Plant

variable {p : Plant σ η ν} {l : MemoryLedger} {flight : Flight η ν}

/-- The fire that is next will be seen by the status listener and by no other. -/
def Sole (p : Plant σ η ν) (s : Scheduler η ν) : Prop :=
  ∀ q, s.queue.head? = some q → s.listenersFor q.fire.key = [(StatusListener.name, p.status)]

structure Attended (p : Plant σ η ν) (flight : Flight η ν) : Prop where
  sole : flight.taken.listeners = [(StatusListener.name, p.status)]
  key : flight.context.key = flight.taken.fire.key
  attempt : flight.context.refireCount = flight.taken.fire.refireCount

inductive Launched (p : Plant σ η ν) (l : MemoryLedger) : Launch η ν → MemoryLedger → Prop where
  | idle : Launched p l .idle l
  | grounded (taken : TakenFire ν) {outcome : FireOutcome}
      (unflown : ∀ result, outcome ≠ .dispatched result) : Launched p l (.grounded taken outcome) l
  | airborne {flight : Flight η ν} {l' : MemoryLedger} (attended : p.Attended flight)
      (marking : Marking l flight.taken.fire.key flight.taken.fire.refireCount l') :
      Launched p l (.airborne flight) l'

private theorem transition_effect {R : Scheduler η ν → Prop} (site : Site σ η ν) (key : JobKey)
    (u : StatusUpdate) (l : MemoryLedger) :
    site.Triple (fun s l' => R s ∧ l' = l) (site.book.transition key u) fun r s l' =>
      R s ∧ Answers l key u r l' := by
  refine Site.Triple.now.after fun time => Site.Triple.onLedger fun s l' hl => ?_
  obtain ⟨hs, rfl⟩ := hl
  exact ⟨hs, MemoryLedger.answers_attempt _ key u time⟩

/-- The status listener lets a fire pass once it has marked the row, if there is one. -/
theorem before_effect {R : Scheduler η ν → Prop} (site : Site σ η ν) (fire : FireContext)
    (l : MemoryLedger) :
    site.Triple (fun s l' => R s ∧ l' = l) (StatusListener.before site.book fire)
      fun verdict s l' => R s ∧ (verdict = .veto ∧ l' = l ∨
        verdict = .proceed ∧ Marking l fire.key fire.refireCount l') := by
  refine (transition_effect site fire.key (.running fire.refireCount) l).bind fun r =>
    Site.Triple.naming fun s l' hr => ?_
  obtain ⟨hs, hanswer⟩ := hr
  cases hanswer with
  | missing hnone =>
    refine (Site.Triple.log _ _ _ _).after fun _ => Site.Triple.pure ?_
    rintro s' l' ⟨rfl, rfl⟩
    exact ⟨hs, .inr ⟨rfl, .unknown hnone⟩⟩
  | @refused row hrow hstate =>
    have hcancelled : row.state = .cancelled := by
      obtain hcancelled | hcreated | ⟨-, hfinished⟩ := JobState.of_not_canMoveTo hstate
      · exact hcancelled
      · cases hcreated
      · cases hfinished
    rw [hcancelled]
    refine (Site.Triple.log _ _ _ _).after fun _ => Site.Triple.pure ?_
    rintro s' l' ⟨rfl, rfl⟩
    exact ⟨hs, .inl ⟨rfl, rfl⟩⟩
  | moved hrow hmoved =>
    refine Site.Triple.pure ?_
    rintro s' l' ⟨rfl, rfl⟩
    exact ⟨hs, .inr ⟨rfl, .marked hrow hmoved⟩⟩

theorem permit_effect (p : Plant σ η ν) (fire : FireContext) (l : MemoryLedger) :
    p.Triple (fun s l' => s.Filed ∧ l' = l)
      (p.engine.permit fire [(StatusListener.name, p.status)]) fun r s l' => s.Filed ∧
        ((∃ outcome, (∀ result, outcome ≠ .dispatched result) ∧ r = .error outcome ∧ l' = l) ∨
          ∃ handler, r = .ok handler ∧ Marking l fire.key fire.refireCount l') := by
  have hread : p.Keeps (fun s l' => s.Filed ∧ l' = l)
      (p.engine.scheduler.read (·.registry.resolve fire.definition.kind)) :=
    Site.Triple.still fun _ => rfl
  have hveto : p.Triple (fun s l' => s.Filed ∧ l' = l)
      (p.engine.firstVeto fire [(StatusListener.name, p.status)]) fun veto s l' => s.Filed ∧
        (veto.isSome ∧ l' = l ∨ veto = none ∧ Marking l fire.key fire.refireCount l') := by
    have hbefore := before_effect (R := Scheduler.Filed) p.toSite fire l
    rw [show StatusListener.before p.book fire = (p.listener p.status).before fire by
      rw [p.keepsBook]; rfl] at hbefore
    refine hbefore.bind fun verdict => ?_
    cases verdict with
    | veto => exact Site.Triple.pure fun _ _ ⟨hs, hl⟩ => ⟨hs, by simpa using hl⟩
    | proceed => exact Site.Triple.pure fun _ _ ⟨hs, hl⟩ => ⟨hs, by simpa using hl⟩
  refine hread.after fun handler => ?_
  cases handler with
  | none =>
    exact (Site.Triple.log _ _ _ _).after fun _ =>
      Site.Triple.pure fun _ _ ⟨hs, hl⟩ => ⟨hs, .inl ⟨_, (fun _ h => by cases h), rfl, hl⟩⟩
  | some handler =>
    refine hveto.bind fun veto => ?_
    cases veto with
    | none =>
      exact Site.Triple.pure fun _ _ ⟨hs, hl⟩ => ⟨hs, .inr ⟨handler, rfl, by simpa using hl⟩⟩
    | some name =>
      exact (Site.Triple.log _ _ _ _).after fun _ =>
        Site.Triple.pure fun _ _ ⟨hs, hl⟩ =>
          ⟨hs, .inl ⟨_, (fun _ h => by cases h), rfl, by simpa using hl⟩⟩

/-- A launch marks the row of the fire that takes off, and no other. -/
theorem launch_effect (p : Plant σ η ν) (h : Host σ) (hsole : p.Sole (p.scheduler.get h.app))
    (hfiled : (p.scheduler.get h.app).Filed) :
    (p.scheduler.get (p.engine.launch h).2.app).Filed ∧
      p.Launched (p.ledger.get h.app) (p.engine.launch h).1
        (p.ledger.get (p.engine.launch h).2.app) := by
  let now := (Act.now h).1
  let s₀ := p.scheduler.get h.app
  let l := p.ledger.get h.app
  have htake : p.Triple (fun s l' => s = s₀ ∧ l' = l) (p.engine.scheduler.run (·.take now))
      fun r s l' => r = (s₀.take now).1 ∧ s.Filed ∧ l' = l := by
    refine Site.Triple.onScheduler fun s l' hl => ?_
    obtain ⟨rfl, rfl⟩ := hl
    exact ⟨rfl, hfiled.take now, rfl⟩
  have hlaunch : p.Triple (fun s l' => s = s₀ ∧ l' = l) (p.engine.launchBy now) fun r s l' =>
      s.Filed ∧ p.Launched l r l' := by
    refine htake.bind fun r => ?_
    apply Site.Triple.assuming
    intro hr
    cases r with
    | none =>
      refine Site.Triple.pure ?_
      rintro s l' ⟨hs, rfl⟩
      exact ⟨hs, .idle⟩
    | some taken =>
      obtain ⟨q, rest, job, hqueue, -, hjob, htaken, -⟩ :=
        Scheduler.take_some (Prod.ext hr.symm rfl : s₀.take now = (some taken, (s₀.take now).2))
      have hsolely : taken.listeners = [(StatusListener.name, p.status)] := by
        rw [htaken]
        exact hsole q (congrArg List.head? hqueue)
      have hkey : taken.job.definition.key = taken.fire.key := by
        rw [htaken]
        exact hfiled _ job hjob
      have hcreate : p.Triple (fun s l' => s.Filed ∧ l' = l) (FireContext.create
          taken.job.definition taken.fire.triggerData taken.fire.refireCount) fun fire s l' =>
            (fire.key = taken.fire.key ∧ fire.refireCount = taken.fire.refireCount) ∧
              s.Filed ∧ l' = l := fun _ hh => ⟨⟨hkey, rfl⟩, hh⟩
      refine hcreate.bind fun fire => ?_
      apply Site.Triple.assuming
      intro hfire
      let context : FireContext := { fire with scheduledFor := taken.fire.scheduledFor }
      have hpermit := p.permit_effect context l
      rw [← hsolely] at hpermit
      refine hpermit.bind fun permitted => Site.Triple.naming ?_
      rintro s l' ⟨hs, ⟨outcome, hunflown, rfl, rfl⟩ | ⟨handler, rfl, hmarking⟩⟩
      · refine Site.Triple.pure ?_
        rintro s' l' ⟨rfl, rfl⟩
        exact ⟨hs, .grounded taken hunflown⟩
      · refine Site.Triple.pure ?_
        rintro s' l' ⟨rfl, rfl⟩
        have hattended : p.Attended { taken, context, handler } := ⟨hsolely, hfire.1, hfire.2⟩
        refine ⟨hs, .airborne hattended ?_⟩
        rw [← hfire.1, ← hfire.2]
        exact hmarking
  exact hlaunch (Act.now h).2 ⟨rfl, rfl⟩

/-- A landing records in the row of its job how the run ended, and reports the attempt. -/
theorem land_effect (attended : p.Attended flight) (result : Except DispatchError Unit)
    (l : MemoryLedger) :
    p.Triple (fun s l' => s.Filed ∧ l' = l) (p.engine.land flight result) fun r s l' => s.Filed ∧
      (∃ answer, Answers l flight.taken.fire.key (StatusListener.updateFor result) answer l') ∧
        (r = .crashed ∨ r = .fired
          { key := flight.taken.fire.key, attempt := flight.taken.fire.refireCount
            outcome := .dispatched result }) := by
  let told : MemoryLedger → Prop := fun l' =>
    ∃ answer, Answers l flight.taken.fire.key (StatusListener.updateFor result) answer l'
  have hafter : p.Triple (fun s l' => s.Filed ∧ l' = l)
      (p.engine.tellAll flight.context result flight.taken.listeners) fun _ s l' =>
        s.Filed ∧ told l' := by
    have hrecord := transition_effect (R := Scheduler.Filed) p.toSite flight.context.key
      (StatusListener.updateFor result) l
    rw [attended.sole]
    change p.Triple _ ((p.listener p.status).after flight.context result >>= fun _ => pure ()) _
    rw [p.keepsBook]
    refine Site.Triple.bind (Q := fun _ s l' => s.Filed ∧ told l') (hrecord.bind fun r => ?_)
      fun _ => Site.Triple.pure fun _ _ hh => hh
    rw [attended.key]
    cases r with
    | ok row => exact Site.Triple.pure fun _ _ ⟨hs, hl⟩ => ⟨hs, _, hl⟩
    | error e =>
      exact (Site.Triple.log _ _ _ _).mono (fun _ _ ⟨hs, hl⟩ => ⟨hs, _, hl⟩) fun _ _ _ hh => hh
  have hfollow : p.Triple (fun s l' => s.Filed ∧ told l')
      (p.engine.afterFire flight.taken.fire flight.taken.job.trigger (.dispatched result))
      fun _ s l' => s.Filed ∧ told l' :=
    afterFire_triple fun s l' now hh => ⟨hh.1.afterFire _ _ _ now, hh.2⟩
  refine hafter.bind fun _ => ?_
  refine hfollow.bind fun kept => ?_
  cases kept with
  | true => exact Site.Triple.pure fun _ _ ⟨hs, hl⟩ => ⟨hs, hl, .inr rfl⟩
  | false => exact Site.Triple.pure fun _ _ ⟨hs, hl⟩ => ⟨hs, hl, .inl rfl⟩

end Plant

namespace Mirrors

variable {air front back : List (Sortie η ν)} {s : Scheduler η ν} {l l' : MemoryLedger}
variable {flight : Flight η ν} {x : Sortie η ν} {result : Except DispatchError Unit}

theorem takeOff (h : Mirrors air s l)
    (marking : Marking l flight.taken.fire.key flight.taken.fire.refireCount l') :
    Mirrors (Sortie.takeOff l flight air) s l' := by
  cases marking with
  | unknown hnone =>
    refine h.leave Sortie.elsewhere_takeOff (fun row hrow => ?_) fun x hx hrecorded hkey => ?_
    · rw [hnone] at hrow
      cases hrow
    · obtain rfl | hx := List.mem_cons.mp hx
      · change (l.get? flight.taken.fire.key).isSome at hrecorded
        rw [hnone] at hrecorded
        cases hrecorded
      · obtain ⟨y, hy, rfl⟩ := List.mem_map.mp hx
        rw [Sortie.recorded_besideStart] at hrecorded
        rw [Sortie.key_besideStart] at hkey
        obtain ⟨row, hrow, -⟩ := h.marked y hy hrecorded
        rw [hkey, hnone] at hrow
        cases hrow
  | @marked row moved now hrow hmoved =>
    obtain ⟨hid, hstate, -, hattempt, hfinished⟩ := MemoryLedger.apply_ok hmoved
    have hrunning : moved.state = .running := hstate
    have hbegun : moved.state ≠ .created := by
      rw [hrunning]
      exact JobState.noConfusion
    exact h.write Sortie.elsewhere_takeOff (hid.trans (h.own _ row hrow))
      (fun _ => ⟨_, List.mem_cons_self, rfl⟩) fun x hx _ hkey =>
        ⟨hbegun, hattempt.trans (Sortie.latest_takeOff hx hkey).symm,
          fun _ => .inr ⟨hrunning, hfinished⟩⟩

theorem land (h : Mirrors (front ++ x :: back) s l)
    {answer : Except LedgerError JobStatus}
    (hanswer : Answers l x.key (StatusListener.updateFor result) answer l') :
    Mirrors ((front ++ back).map (Sortie.besideLanding x.key)) s l' := by
  obtain ⟨hcreated, hrunning, -⟩ := StatusListener.updateFor_state result
  -- each other fire of the job that is in the air has a row, which says of it what it has to
  have hmarked : ∀ y ∈ (front ++ back).map (Sortie.besideLanding x.key), y.recorded →
      y.key = x.key → ∃ (z : Sortie η ν) (row : JobStatus), y = z.besideLanding x.key ∧
        z.key = x.key ∧ l.get? x.key = some row ∧ z.Marks row := by
    intro y hy hrecorded hkey
    obtain ⟨z, hz, rfl⟩ := List.mem_map.mp hy
    rw [Sortie.recorded_besideLanding] at hrecorded
    rw [Sortie.key_besideLanding] at hkey
    have hin : z ∈ front ++ x :: back := by
      simp only [List.mem_append, List.mem_cons] at hz ⊢
      exact hz.imp_right .inr
    obtain ⟨row, hrow, hmarks⟩ := h.marked z hin hrecorded
    exact ⟨z, row, rfl, hkey, hkey ▸ hrow, hmarks⟩
  cases hanswer with
  | missing hnone =>
    refine h.leave Sortie.elsewhere_land (fun row hrow => ?_) fun y hy hrecorded hkey => ?_
    · rw [hnone] at hrow
      cases hrow
    · obtain ⟨z, row, -, -, hrow, -⟩ := hmarked y hy hrecorded hkey
      rw [hnone] at hrow
      cases hrow
  | @refused row hrow hstate =>
    refine h.leave Sortie.elsewhere_land (fun row' hrow' hflying => ?_)
      fun y hy hrecorded hkey => ?_
    · rw [hrow] at hrow'
      cases hrow'
      rw [hflying] at hstate
      obtain habsorbed | hfirst | ⟨hnew, -⟩ := JobState.of_not_canMoveTo hstate
      · cases habsorbed
      · exact absurd hfirst hcreated
      · cases hnew
    · obtain ⟨z, row', rfl, hz, hrow', hmarks⟩ := hmarked y hy hrecorded hkey
      exact ⟨row', hrow', Sortie.marks_besideLanding hz hmarks.begun hmarks.attempts⟩
  | @moved row moved now hrow hmoved =>
    obtain ⟨hid, hstate, -, hattempts, -⟩ := MemoryLedger.apply_ok hmoved
    rw [StatusListener.updateFor_attempt] at hattempts
    refine h.write Sortie.elsewhere_land (hid.trans (h.own _ row hrow)) (fun hflying => ?_)
      fun y hy hrecorded hkey => ?_
    · exact absurd (hstate.symm.trans hflying) hrunning
    · obtain ⟨z, row', rfl, hz, hrow', hmarks⟩ := hmarked y hy hrecorded hkey
      rw [hrow] at hrow'
      cases hrow'
      exact Sortie.marks_besideLanding hz (hstate ▸ hcreated) (hattempts.trans hmarks.attempts)

end Mirrors

/-- What the row of a job says after an attempt at it. -/
def Records (row : JobStatus) : Except DispatchError Unit → Prop
  | .ok () => row.state = .finished ∧ row.result = none
  | .error e =>
    match e.aftermath with
    | .refire _ => row.state = .pending ∧ row.result = some e.cause.message
    | .exhausted | .fatal => row.state = .failed ∧ row.result = some e.cause.message

theorem records_of_update {row : JobStatus} {result : Except DispatchError Unit}
    (hstate : row.state = (StatusListener.updateFor result).state)
    (hresult : row.result = (StatusListener.updateFor result).result) : Records row result := by
  rcases result with e | ⟨⟩
  · unfold StatusListener.updateFor DispatchError.asksRefire at hstate hresult
    unfold DispatchError.refireDelay at hstate hresult
    unfold Records
    cases haftermath : e.aftermath with
    | refire delay =>
      simp only [haftermath] at hstate hresult ⊢
      exact ⟨hstate, hresult⟩
    | exhausted =>
      simp only [haftermath] at hstate hresult ⊢
      exact ⟨hstate, hresult⟩
    | fatal =>
      simp only [haftermath] at hstate hresult ⊢
      exact ⟨hstate, hresult⟩
  · exact ⟨hstate, hresult⟩

/-- The row of a job mirrors a fire of it that landed, or stays cancelled when that is what it was.
The attempt is that of the last fire of the job that took off. A job that waits for another attempt
has not finished, unless another fire of it has landed since this one took off. -/
def Sortie.Mirrored (x : Sortie η ν) (result : Except DispatchError Unit)
    (before after : MemoryLedger) : Prop :=
  ∃ row, before.get? x.key = some row ∧
    (row.state = .cancelled ∧ after.get? x.key = some row ∨
      row.state ≠ .cancelled ∧ ∃ told, after.get? x.key = some told ∧ Records told result ∧
        told.attempts = x.latest ∧
        (x.crossed = false → told.state = .pending → told.finishedAt = none))

theorem Mirrors.mirrored {air : List (Sortie η ν)} {s : Scheduler η ν} {l l' : MemoryLedger}
    {x : Sortie η ν} {result : Except DispatchError Unit} (h : Mirrors air s l) (hx : x ∈ air)
    (hrecorded : x.recorded) {answer : Except LedgerError JobStatus}
    (hanswer : Answers l x.key (StatusListener.updateFor result) answer l') :
    x.Mirrored result l l' := by
  obtain ⟨row, hrow, hmarks⟩ := h.marked x hx hrecorded
  obtain ⟨hcreated, hrunning, hcancelled⟩ := StatusListener.updateFor_state result
  refine ⟨row, hrow, ?_⟩
  cases hanswer with
  | missing hnone =>
    rw [hnone] at hrow
    cases hrow
  | @refused row' hrow' hstate =>
    rw [hrow] at hrow'
    cases hrow'
    obtain habsorbed | hfirst | ⟨hnew, -⟩ := JobState.of_not_canMoveTo hstate
    · exact .inl ⟨habsorbed, hrow⟩
    · exact absurd hfirst hcreated
    · exact absurd hnew hmarks.begun
  | @moved row' moved now hrow' hmoved =>
    rw [hrow] at hrow'
    cases hrow'
    obtain ⟨-, hstate, hresult, hattempts, hfinished⟩ := MemoryLedger.apply_ok hmoved
    rw [if_neg hcancelled] at hresult
    rw [if_neg hrunning] at hfinished
    have hlive : row.state ≠ .cancelled := fun habsorbed => by
      rw [MemoryLedger.apply_cancelled habsorbed] at hmoved
      cases hmoved
    refine .inr ⟨hlive, moved, Assoc.get?_put_self l.rows x.key moved,
      records_of_update hstate hresult, ?_, fun huncrossed hpending => ?_⟩
    · rw [hattempts, StatusListener.updateFor_attempt]
      exact hmarks.attempts
    · obtain habsorbed | ⟨-, hopen⟩ := hmarks.untouched huncrossed
      · exact absurd habsorbed hlive
      · rw [hstate] at hpending
        rw [hfinished, hpending]
        exact hopen

end JobEngine
