import JobEngine.Proofs.Answer
import JobEngine.Proofs.Observation
import JobEngine.Proofs.Units
/-! The envelope of a run. The run is taken stage by stage, from entering its request scope to
leaving it, and each stage is described by what it answers and by the calls it makes: of the unit of
work, the body and the bus. A course is one description of each stage, put together. -/

namespace JobEngine

variable {σ : Type}

/-! What each stage of a run answers and records. -/

/-- Opening a unit of work: the flag says whether the run opened one and so has to close it. -/
inductive Opening (scope : WorkScope σ) : Bool → List Call → Prop where
  | disabled (hnone : scope.isSome = false) : Opening scope false []
  | own (enabled : scope.isSome) : Opening scope true [.opened (.ok ())]
  | foreign (enabled : scope.isSome) (e : UnitOfWorkError) :
      Opening scope false [.opened (.error e)]

inductive Closing : Bool → Except UnitOfWorkError Unit → List Call → Prop where
  | foreign : Closing false (.ok ()) []
  | kept : Closing true (.ok ()) [.closed (.ok ())]
  | already : Closing true (.ok ()) [.closed (.error .notActive)]
  | failed (e : UnitOfWorkError) (he : e ≠ .notActive) :
      Closing true (.error e) [.closed (.error e)]

inductive Publication (t : Transport σ) (queued : Outbox) :
    Except PublishError Nat → List Call → Prop where
  | nothing (hq : queued = []) : Publication t queued (.ok 0) []
  | all (hq : queued ≠ []) :
      Publication t queued (.ok queued.length) (.handed queued :: queued.map .delivered)
  | upTo (front : List OutboundEvent) (e : OutboundEvent) (back : List OutboundEvent)
      (reason : String) (hq : queued = front ++ e :: back) (whole : t.isWhole → front = []) :
      Publication t queued (.error { sent := front.length, reason })
        (.handed queued :: front.map .delivered ++ [.refused reason])

private theorem follows_readOwner (d : TriggerData) : Follows (σ := σ)
    d.readOwner d.readOwner Quiet := by
  unfold TriggerData.readOwner
  split
  · split
    · exact (Follows.log _ _ _ _).after fun _ => .pure rfl
    · exact .pure rfl
  · exact .pure rfl

private theorem follows_readLogLevel (d : TriggerData) :
    Follows (σ := σ) d.readLogLevel d.readLogLevel Quiet := by
  unfold TriggerData.readLogLevel
  split
  · split
    · exact (Follows.log _ _ _ _).after fun _ => .pure rfl
    · exact .pure rfl
  · exact .pure rfl

private theorem follows_start (fire : FireContext) :
    Follows (σ := σ) (JobRun.start fire) (JobRun.start fire) fun run calls =>
      (run.key = fire.key ∧ run.attempt = fire.refireCount) ∧ calls = [] := by
  unfold JobRun.start
  exact Follows.freshId.after fun _ => (follows_readOwner _).after fun _ =>
    (follows_readLogLevel _).after fun _ => Follows.now.after fun _ => .pure ⟨⟨rfl, rfl⟩, rfl⟩

private theorem follows_finish (run : JobRun) :
    Follows (σ := σ) run.finish run.finish fun next calls =>
      (next.key = run.key ∧ next.attempt = run.attempt) ∧ calls = [] := by
  unfold JobRun.finish
  exact Follows.now.after fun _ => .pure ⟨⟨rfl, rfl⟩, rfl⟩

theorem follows_begin (scope : WorkScope σ) :
    Follows (WorkScope.begin (scope.map (·.observed))) scope.begin (Opening scope) := by
  cases scope with
  | none => exact .pure (.disabled rfl)
  | some u =>
    refine (Follows.recorded .opened u.begin).bind ?_
    rintro answer _ rfl
    split
    · exact .pure (.own rfl)
    · exact (Follows.log _ _ _ _).after fun _ => .pure (.foreign rfl _)
    · exact (Follows.log _ _ _ _).after fun _ => .pure (.foreign rfl _)

theorem follows_close (scope : WorkScope σ) (enabled : scope.isSome) :
    Follows (WorkScope.finish (scope.map (·.observed))) scope.finish (Closing true) := by
  cases scope with
  | none => cases enabled
  | some u =>
    refine (Follows.recorded .closed u.finish).bind ?_
    rintro answer _ rfl
    split
    · exact (Follows.log _ _ _ _).after fun _ => .pure .already
    · rename_i other
      cases answer with
      | ok _ => exact .pure .kept
      | error e => exact .pure (.failed e fun he => other (he ▸ rfl))

theorem follows_abort (scope : WorkScope σ) (enabled : scope.isSome) :
    Follows (WorkScope.abort (scope.map (·.observed))) scope.abort fun _ calls =>
      ∃ answer, calls = [.aborted answer] := by
  cases scope with
  | none => cases enabled
  | some u =>
    refine (Follows.recorded .aborted u.abort).bind ?_
    rintro answer _ rfl
    have quiet : ∀ calls, calls = [] →
        ∃ given, [Call.aborted answer] ++ calls = [Call.aborted given] := by
      rintro _ rfl
      exact ⟨answer, rfl⟩
    split
    · exact .pure (quiet [] rfl)
    · exact (Follows.log _ _ _ _).mono fun _ => quiet
    · exact (Follows.log _ _ _ _).mono fun _ => quiet

private theorem follows_discard (queued : Outbox) :
    Follows (σ := σ) (Outbox.discard queued) (Outbox.discard queued) Quiet := by
  unfold Outbox.discard
  split
  · exact (Follows.log _ _ _ _).after fun _ => .pure rfl
  · exact .pure rfl

theorem follows_noteAll (calls : List Call) :
    Follows (σ := σ) (Observed.noteAll calls) (pure ()) fun _ l => l = calls := by
  induction calls with
  | nil => exact .pure rfl
  | cons c rest ih =>
    refine ⟨fun h => ih.same (Observed.note c h).2, fun h => ?_⟩
    obtain ⟨l, hl, rfl⟩ := ih.fits (Observed.note c h).2
    refine ⟨c :: l, ?_, rfl⟩
    have hnote : (Observed.note c h).2.app.calls = h.app.calls ++ [c] := rfl
    rw [hnote, List.append_assoc] at hl
    exact hl

private theorem follows_publish (publish : Act σ (Except String Unit)) (es : List OutboundEvent) :
    Follows (Transport.recordedPublish publish es) publish fun answer calls =>
      calls = Transport.outcome es answer := by
  change Follows _ (publish >>= fun answer => pure () >>= fun _ => pure answer) _
  refine (Follows.lift publish).after fun answer => (follows_noteAll _).bind ?_
  rintro _ _ rfl
  exact .pure (List.append_nil _)

def Batch (sent : Nat) (es : List OutboundEvent) (answer : Except BatchFailure Nat)
    (calls : List Call) : Prop :=
  (answer = .ok (sent + es.length) ∧ calls = es.map .delivered) ∨
    ∃ front e back reason, es = front ++ e :: back ∧
      answer = .error { sent := sent + front.length, reason } ∧
      calls = front.map .delivered ++ [.refused reason]

theorem follows_oneByOne (publish : OutboundEvent → Act σ (Except String Unit)) (sent : Nat)
    (es : List OutboundEvent) :
    Follows (EventBus.oneByOne (fun e => Transport.recordedPublish (publish e) [e]) sent es)
      (EventBus.oneByOne publish sent es) (Batch sent es) := by
  induction es generalizing sent with
  | nil => exact .pure (.inl ⟨rfl, rfl⟩)
  | cons e rest ih =>
    refine (follows_publish (publish e) [e]).bind ?_
    rintro answer _ rfl
    cases answer with
    | error reason => exact .pure (.inr ⟨[], e, rest, reason, rfl, rfl, rfl⟩)
    | ok _ =>
      refine (ih (sent + 1)).mono ?_
      rintro _ _ (⟨rfl, rfl⟩ | ⟨front, e', tail, reason, rfl, rfl, rfl⟩)
      · refine .inl ⟨?_, rfl⟩
        rw [List.length_cons, Nat.add_comm rest.length, Nat.add_assoc]
      · refine .inr ⟨e :: front, e', tail, reason, rfl, ?_, rfl⟩
        rw [List.length_cons, Nat.add_comm front.length, Nat.add_assoc]

theorem follows_batch (t : Transport σ) (es : List OutboundEvent) (hes : es ≠ []) :
    Follows ((Transport.batchesNoted t.observed.bus).publishBatch es) (t.bus.publishBatch es)
      fun answer calls => ∃ rest, calls = .handed es :: rest ∧ Batch 0 es answer rest ∧
        (t.isWhole → ∀ f, answer = .error f → f.sent = 0) := by
  refine .noting (.handed es) ?_
  cases t with
  | single publish =>
    refine (follows_oneByOne publish 0 es).mono ?_
    intro answer rest hbatch
    exact ⟨rest, rfl, hbatch, fun whole => nomatch whole⟩
  | whole publish =>
    refine (follows_publish (publish es) es).bind ?_
    rintro answer _ rfl
    cases answer with
    | ok _ => exact .pure ⟨_, rfl, .inl ⟨by rw [Nat.zero_add], List.append_nil _⟩, nofun⟩
    | error reason =>
      obtain ⟨e, back, rfl⟩ := List.exists_cons_of_ne_nil hes
      refine .pure ⟨_, rfl, .inr ⟨[], e, back, reason, rfl, rfl, rfl⟩, ?_⟩
      rintro - _ ⟨⟩
      rfl

theorem follows_send (t : Transport σ) (queued : Outbox) :
    Follows (Outbox.send (Transport.batchesNoted t.observed.bus) queued) (Outbox.send t.bus queued)
      (Publication t queued) := by
  cases queued with
  | nil => exact .pure (.nothing rfl)
  | cons e rest =>
    have hq : e :: rest ≠ [] := List.cons_ne_nil e rest
    refine (follows_batch t (e :: rest) hq).bind ?_
    rintro answer _ ⟨calls, rfl, hbatch, hwhole⟩
    have published : Publication t (e :: rest)
        (answer.mapError fun f => { sent := f.sent, reason := f.reason })
        (.handed (e :: rest) :: calls) := by
      obtain ⟨rfl, rfl⟩ | ⟨front, e', back, reason, hes, rfl, rfl⟩ := hbatch
      · rw [Nat.zero_add]
        exact .all hq
      · have hsent : 0 + front.length = front.length := Nat.zero_add _
        rw [hsent] at hwhole ⊢
        exact .upTo front e' back reason hes fun whole =>
          List.length_eq_zero_iff.mp (hwhole whole _ rfl)
    rw [← List.append_nil (.handed (e :: rest) :: calls)] at published
    cases answer with
    | error f => exact .pure published
    | ok sent => exact (Follows.log _ _ _ _).after fun _ => .pure published

variable (s : Surroundings σ) (job : Job σ) (fire : FireContext)

theorem follows_onFailure {run : JobRun}
    (hrun : run.key = fire.key ∧ run.attempt = fire.refireCount)
    (cause : JobError) :
    Follows (s.observed.onFailure job.observed run cause) (s.harness.onFailure job run cause)
      fun failure calls => failure = failed s.policy job fire cause ∧ calls = [] := by
  unfold Harness.onFailure RetryPolicy.judge failed RetryPolicy.aftermath
  simp only [Job.observed, hrun.1, hrun.2, Surroundings.observed, Surroundings.harness]
  by_cases hkind : (job.classify cause).isRetryable
  · simp only [hkind, ↓reduceIte]
    exact (Follows.log _ _ _ _).after fun _ => .pure ⟨rfl, rfl⟩
  · simp only [hkind]
    exact (Follows.log _ _ _ _).after fun _ => .pure ⟨rfl, rfl⟩

theorem follows_flush {run : JobRun} (hrun : run.key = fire.key ∧ run.attempt = fire.refireCount)
    (queued : Outbox) :
    Follows (s.observed.flush run queued) (s.harness.flush run queued) fun answer calls =>
      ∃ sending, Publication s.transport queued sending calls ∧
        answer = (sending.mapError (unsent fire)).map fun _ => () := by
  refine (follows_send s.transport queued).bind fun sending calls hsending => ?_
  rw [← List.append_nil calls] at hsending
  cases sending with
  | ok _ => exact (Follows.log _ _ _ _).after fun _ => .pure ⟨_, hsending, rfl⟩
  | error e =>
    refine (Follows.log _ _ _ _).after fun _ => .pure ⟨_, hsending, ?_⟩
    unfold unsent
    rw [← hrun.1, ← hrun.2]
    rfl

/-- How a run is settled, by how its body ended and whether it opened a unit of work: what it
answers, and whether a unit is left to abort. -/
inductive Settlement (queued : Outbox) :
    Except Stop Unit → Bool → Except DispatchError Unit × Bool → List Call → Prop where
  | closed {owns closing sending publishing} (hclosing : Closing owns (.ok ()) closing)
      (hsending : Publication s.transport queued sending publishing) :
      Settlement queued (.ok ()) owns ((sending.mapError (unsent fire)).map fun _ => (), false)
        (closing ++ publishing)
  | unclosed {owns e closing} (hclosing : Closing owns (.error e) closing) :
      Settlement queued (.ok ()) owns (.error (failed s.policy job fire (commitError e)), false)
        closing
  | stopped {owns} (stop : Stop) :
      Settlement queued (.error stop) owns (.error (failed s.policy job fire stop.error), owns) []

private theorem follows_commit (owns : Bool) (enabled : owns → s.unitOfWork.isSome) :
    Follows (s.observed.commit owns) (s.harness.commit owns) (Closing owns) := by
  cases owns with
  | false => exact .pure .foreign
  | true => exact follows_close s.unitOfWork (enabled rfl)

theorem follows_conclude {run : JobRun}
    (hrun : run.key = fire.key ∧ run.attempt = fire.refireCount) (queued : Outbox)
    {owns : Bool} {answer : Except UnitOfWorkError Unit} {closing : List Call}
    (hclosing : Closing owns answer closing) :
    Follows (s.observed.conclude job.observed run queued answer)
      (s.harness.conclude job run queued answer) fun result calls =>
        Settlement s job fire queued (.ok ()) owns (result, false) (closing ++ calls) := by
  cases answer with
  | ok _ =>
    refine (follows_flush s fire hrun queued).mono ?_
    rintro _ _ ⟨sending, hsending, rfl⟩
    exact .closed hclosing hsending
  | error e =>
    refine (follows_discard queued).after fun _ =>
      (follows_onFailure s job fire hrun (commitError e)).bind ?_
    rintro _ _ ⟨rfl, rfl⟩
    refine .pure ?_
    rw [List.append_nil, List.append_nil]
    exact .unclosed hclosing

theorem follows_settle {run : JobRun} (hrun : run.key = fire.key ∧ run.attempt = fire.refireCount)
    (owns : Bool) (enabled : owns → s.unitOfWork.isSome) (ended : Except Stop Unit)
    (queued : Outbox) :
    Follows (s.observed.settle job.observed run owns ended queued)
      (s.harness.settle job run owns ended queued) (Settlement s job fire queued ended owns) := by
  cases ended with
  | error stop =>
    refine (follows_discard queued).after fun _ =>
      (follows_onFailure s job fire hrun stop.error).bind ?_
    rintro _ _ ⟨rfl, rfl⟩
    exact .pure (.stopped stop)
  | ok _ =>
    refine (follows_commit s owns enabled).bind fun answer closing hclosing =>
      (follows_conclude s job fire hrun queued hclosing).bind fun result calls hsettled => .pure ?_
    rw [List.append_nil]
    exact hsettled

def Entering (context : ExecutionContext) (calls : List Call) : Prop :=
  calls = if s.requestScope.isSome then [.entered context] else []

/-- What is owed at the end: the request scope is left, then a unit that is still open aborted. -/
def Leaving (owes : Bool) (calls : List Call) : Prop :=
  ∃ aborting, calls = (if s.requestScope.isSome then [.left] else []) ++ aborting ∧
    if owes then ∃ answer, aborting = [.aborted answer] else aborting = []

private theorem follows_enter (context : ExecutionContext) :
    Follows (s.observed.enter context) (s.harness.enter context)
      fun _ => Entering s context := by
  unfold Harness.enter Entering Surroundings.observed Surroundings.harness
  cases s.requestScope with
  | none => exact Follows.enterSpan _
  | some scope =>
    refine (Follows.recorded (fun _ => .entered context) (scope.enter context)).bind ?_
    rintro _ _ rfl
    exact (Follows.enterSpan _).mono fun _ _ h => by rw [h]; rfl

private theorem follows_announce (run : JobRun) :
    Follows (Harness.announce job.observed run fire) (Harness.announce job run fire) Quiet := by
  unfold Harness.announce Job.observed
  apply Follows.now.after
  intro started
  cases job.logsTime with
  | false => exact (Follows.log _ _ _ _).after fun _ => .pure rfl
  | true =>
    exact (Follows.log _ _ _ _).after fun _ => (Follows.log _ _ _ _).after fun _ => .pure rfl

private theorem follows_body (b : Body σ Unit) :
    Follows b.observed.execute b.execute fun r calls => calls = [.ran r.1 r.2] :=
  Follows.recorded _ _

private theorem follows_leave : Follows s.observed.leave s.harness.leave fun _ calls =>
    calls = if s.requestScope.isSome then [.left] else [] := by
  unfold Harness.leave Surroundings.observed Surroundings.harness
  cases s.requestScope with
  | none => exact .pure rfl
  | some scope => exact .recorded _ _

private theorem follows_rollback (owes : Bool) (enabled : owes → s.unitOfWork.isSome) :
    Follows (s.observed.rollback owes) (s.harness.rollback owes) fun _ calls =>
      if owes then ∃ answer, calls = [.aborted answer] else calls = [] := by
  cases owes with
  | false => exact .pure rfl
  | true => exact follows_abort s.unitOfWork (enabled rfl)

private theorem follows_reportTime (started : Instant) :
    Follows (Harness.reportTime job.observed started) (Harness.reportTime job started) Quiet := by
  unfold Harness.reportTime Job.observed
  cases job.logsTime with
  | false => exact .pure rfl
  | true => exact Follows.now.after fun _ => .log _ _ _ _

private theorem follows_cleanup (owes : Bool) (enabled : owes → s.unitOfWork.isSome)
    (started : Instant) :
    Follows (s.observed.cleanup job.observed owes started) (s.harness.cleanup job owes started)
      fun _ => Leaving s owes := by
  refine (follows_leave s).bind ?_
  rintro _ _ rfl
  refine (follows_rollback s owes enabled).bind fun _ aborting haborting => ?_
  refine (follows_reportTime job started).mono ?_
  rintro _ _ rfl
  rw [List.append_nil]
  exact ⟨aborting, rfl, haborting⟩

/-- A whole run, part by part: it enters, opens, runs the body, settles and leaves. -/
structure Course (result : Except DispatchError Unit) where
  context : ExecutionContext
  owns : Bool
  ended : Except Stop Unit
  queued : Outbox
  owes : Bool
  entering : List Call
  opening : List Call
  settling : List Call
  leaving : List Call
  enters : Entering s context entering
  opens : Opening s.unitOfWork owns opening
  settles : Settlement s job fire queued ended owns (result, owes) settling
  leaves : Leaving s owes leaving

variable {s job fire} in
def Course.calls {result : Except DispatchError Unit} (c : Course s job fire result) : List Call :=
  c.entering ++ c.opening ++ .ran c.ended c.queued :: c.settling ++ c.leaving

theorem Opening.enabled {scope : WorkScope σ} {owns : Bool} {calls : List Call}
    (h : Opening scope owns calls) : owns → scope.isSome := by
  intro howns
  cases h with
  | own enabled => exact enabled
  | disabled | foreign => cases howns

variable {s job fire} in
theorem Settlement.owes_le {queued : Outbox} {ended : Except Stop Unit} {owns owes : Bool}
    {result : Except DispatchError Unit} {calls : List Call}
    (h : Settlement s job fire queued ended owns (result, owes) calls) : owes → owns := by
  intro howes
  cases h with
  | stopped stop => exact howes
  | unclosed hclosing => cases howes
  | closed hclosing hsending => cases howes

theorem follows_arrive :
    Follows (s.observed.arrive job.observed fire) (s.harness.arrive job fire) fun arrival calls =>
      (arrival.1.key = fire.key ∧ arrival.1.attempt = fire.refireCount) ∧
        Entering s (.ofRun arrival.1) calls := by
  refine (follows_start fire).bind ?_
  rintro run _ ⟨hrun, rfl⟩
  refine (follows_enter s (ExecutionContext.ofRun run)).bind fun _ entering hentering => ?_
  refine (follows_announce job fire run).bind ?_
  rintro started _ rfl
  refine .pure ⟨hrun, ?_⟩
  rw [List.nil_append, List.append_nil, List.append_nil]
  exact hentering

inductive FirstHalf (m : Harness.Midway) : List Call → Prop where
  | ran {entering opening : List Call}
      (hrun : m.run.key = fire.key ∧ m.run.attempt = fire.refireCount)
      (enters : Entering s (.ofRun m.run) entering)
      (opens : Opening s.unitOfWork m.owns opening) :
      FirstHalf m (entering ++ opening ++ [.ran m.ended m.events])

inductive SecondHalf (m : Harness.Midway) : Except DispatchError Unit → List Call → Prop where
  | left {owes : Bool} {result : Except DispatchError Unit} {settling leaving : List Call}
      (settles : Settlement s job fire m.events m.ended m.owns (result, owes) settling)
      (leaves : Leaving s owes leaving) : SecondHalf m result (settling ++ leaving)

theorem follows_midway :
    Follows (s.observed.midway job.observed fire) (s.harness.midway job fire)
      (FirstHalf s fire) := by
  refine (follows_arrive s job fire).bind ?_
  rintro ⟨run, started⟩ entering ⟨hrun, hentering⟩
  refine (follows_begin s.unitOfWork).bind fun owns opening hopening => ?_
  refine (follows_body (job.body { run, data := fire.data, context := .ofRun run })).bind ?_
  rintro ⟨ended, queued⟩ _ rfl
  have hhalf := FirstHalf.ran (m := { run, started, owns, ended, events := queued }) hrun hentering
    hopening
  rw [List.append_assoc] at hhalf
  apply Follows.pure
  rw [List.append_nil]
  exact hhalf

theorem follows_wrapUp {m : Harness.Midway} {calls : List Call} (hm : FirstHalf s fire m calls) :
    Follows (s.observed.wrapUp job.observed m.run m.started m.owns m.ended m.events)
      (s.harness.wrapUp job m.run m.started m.owns m.ended m.events)
      (SecondHalf s job fire m) := by
  cases hm with
  | ran hrun enters opens =>
    rw [Harness.wrapUp_eq, Harness.wrapUp_eq]
    refine (follows_finish m.run).bind ?_
    rintro next _ ⟨⟨hkey, hattempt⟩, rfl⟩
    have hnext : next.key = fire.key ∧ next.attempt = fire.refireCount :=
      ⟨hkey.trans hrun.1, hattempt.trans hrun.2⟩
    refine (follows_settle s job fire hnext m.owns opens.enabled m.ended m.events).bind ?_
    rintro ⟨result, owes⟩ settling hsettling
    have enabled : owes → s.unitOfWork.isSome := opens.enabled ∘ hsettling.owes_le
    refine (follows_cleanup s job owes enabled m.started).bind fun _ leaving hleaving => ?_
    refine Follows.leaveSpan.after fun _ => .pure ?_
    rw [List.append_nil, List.nil_append]
    exact .left hsettling hleaving

theorem SecondHalf.course {m : Harness.Midway} {result : Except DispatchError Unit}
    {front back : List Call} (hback : SecondHalf s job fire m result back)
    (hfront : FirstHalf s fire m front) : ∃ c : Course s job fire result, front ++ back = c.calls ∧
      c.context = .ofRun m.run ∧ c.ended = m.ended ∧ c.queued = m.events := by
  cases hfront with
  | @ran entering opening hrun enters opens =>
    cases hback with
    | @left owes _ settling leaving settles leaves =>
      let course : Course s job fire result :=
        { context := .ofRun m.run, owns := m.owns, ended := m.ended, queued := m.events, owes
          entering, opening, settling, leaving, enters, opens, settles, leaves }
      exact ⟨course, by simp [course, Course.calls], rfl, rfl, rfl⟩

theorem follows_run :
    Follows (s.observed.run job.observed fire) (s.harness.run job fire) fun result calls =>
      ∃ c : Course s job fire result, calls = c.calls := by
  rw [Harness.run_midway, Harness.run_midway]
  refine (follows_midway s job fire).bind fun m front hfront => ?_
  refine (follows_wrapUp s job fire hfront).mono fun result back hback => ?_
  obtain ⟨c, hcalls, -⟩ := hback.course s job fire hfront
  exact ⟨c, hcalls⟩

/-- A watched run takes its course, with a body that ends as it does in the plain run. -/
theorem watch_course (h : Host σ) :
    let m := (s.harness.midway job fire h).1
    ∃ c : Course s job fire (s.watch job fire h).1, (s.watch job fire h).2 = c.calls ∧
      c.context = .ofRun m.run ∧ c.ended = m.ended ∧ c.queued = m.events := by
  unfold Surroundings.watch
  rw [Harness.run_midway]
  obtain ⟨front, back, hcalls, hfront, hback⟩ := (follows_midway s job fire).fits_bind
    (fun m _ hfront => follows_wrapUp s job fire hfront) (Observed.fresh h)
  obtain ⟨c, hc, hparts⟩ := hback.course s job fire hfront
  exact ⟨c, hcalls.trans hc, hparts⟩

end JobEngine
