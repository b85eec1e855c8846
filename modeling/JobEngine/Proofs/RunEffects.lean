import JobEngine.Proofs.Answer
import JobEngine.Proofs.Units
import JobEngine.Proofs.EngineSteps
/-! How a run settles what its body has done. When nothing around the body touches a part of the
application, that part ends as the body leaves it. What the body queued is sent when it succeeded
and the unit of work could be closed, and is dropped otherwise. -/

namespace JobEngine

variable {σ τ α : Type}

structure News where
  eventType : String
  target : String
  tenant : Option TenantKey
  payload : Json

def OutboundEvent.news (e : OutboundEvent) : News :=
  { eventType := e.eventType, target := e.target, tenant := e.tenant, payload := e.payload }

/-! The run that a body sees. -/

theorem TriggerData.readOwner_gives (data : TriggerData) :
    Gives (σ := σ) data.readOwner (· = data.owner?) := by
  unfold readOwner
  split
  · split
    · exact Gives.after fun _ => Gives.pure rfl
    · exact Gives.pure rfl
  · exact Gives.pure rfl

theorem TriggerData.readLogLevel_gives (data : TriggerData) :
    Gives (σ := σ) data.readLogLevel (· = data.logLevel?) := by
  unfold readLogLevel
  split
  · split
    · exact Gives.after fun _ => Gives.pure rfl
    · exact Gives.pure rfl
  · exact Gives.pure rfl

theorem start_tenant (fire : FireContext) :
    Gives (σ := σ) (JobRun.start fire) (·.tenant = fire.data.owner?) :=
  Gives.after fun _ => (fire.data.readOwner_gives).bind fun _ htenant =>
    Gives.after fun _ => Gives.after fun _ => Gives.pure htenant

theorem start_logLevel (fire : FireContext) :
    Gives (σ := σ) (JobRun.start fire) (·.logLevel = fire.data.logLevel?) :=
  Gives.after fun _ => Gives.after fun _ => (fire.data.readLogLevel_gives).bind fun _ hlevel =>
    Gives.after fun _ => Gives.pure hlevel

/-! What is around a body. -/

/-- Nothing of what is seen of the application has changed, and nothing was sent. -/
def Unmoved (seen : σ → τ) (published : σ → List OutboundEvent) (h h' : Host σ) : Prop :=
  seen h'.app = seen h.app ∧ published h'.app = published h.app

def Act.Beside (seen : σ → τ) (published : σ → List OutboundEvent) (a : Act σ α) : Prop :=
  ∀ h, Unmoved seen published h (a h).2

theorem Unmoved.trans {seen : σ → τ} {published : σ → List OutboundEvent} {h h' h'' : Host σ}
    (first : Unmoved seen published h h') (second : Unmoved seen published h' h'') :
    Unmoved seen published h h'' := ⟨second.1.trans first.1, second.2.trans first.2⟩

theorem Act.Beside.composes (seen : σ → τ) (published : σ → List OutboundEvent) :
    Composes (Act.Beside seen published) where
  still h host := by
    unfold Unmoved
    rw [h]
    exact ⟨rfl, rfl⟩
  bind ha hf host := (ha host).trans (hf _ _)

/-- All that is around a body leaves alone what is seen, and the bus takes every batch. -/
structure Harness.Conveys (harness : Harness σ) (seen : σ → τ)
    (published : σ → List OutboundEvent) : Prop where
  enter : ∀ scope ∈ harness.requestScope, ∀ context,
    Act.Beside seen published (scope.enter context)
  leave : ∀ scope ∈ harness.requestScope, Act.Beside seen published scope.leave
  begin : ∀ u ∈ harness.unitOfWork, Act.Beside seen published u.begin
  finish : ∀ u ∈ harness.unitOfWork, Act.Beside seen published u.finish
  abort : ∀ u ∈ harness.unitOfWork, Act.Beside seen published u.abort
  accepts : ∀ batch h, (∃ sent, (harness.bus.publishBatch batch h).1 = .ok sent) ∧
    seen (harness.bus.publishBatch batch h).2.app = seen h.app ∧
    published (harness.bus.publishBatch batch h).2.app = published h.app ++ batch

theorem ThreadUnits.service_closes (p : Part σ ThreadUnits) (t : ThreadName) (h : Host σ) :
    (WorkScope.finish (some (service p t)) h).1 = .ok () := by
  obtain ⟨hanswer, -⟩ := WorkScope.finish_some (service p t) h
  refine hanswer.trans ?_
  change WorkScope.excused (finish t (p.get h.app)).1 = .ok ()
  by_cases hactive : (p.get h.app).isActive t
  · rw [finish_of_active hactive]
    rfl
  · unfold finish
    rw [if_neg hactive]
    rfl

/-- What a run answers and has sent at its end, by how its body has ended. -/
inductive Settled (harness : Harness σ) (job : Job σ) (fire : FireContext)
    (published : σ → List OutboundEvent) (ended : Host σ) (queued : Outbox) (h : Host σ) :
    Except Stop Unit → Except DispatchError Unit → Prop where
  | sent (spread : published h.app = published ended.app ++ queued) :
      Settled harness job fire published ended queued h (.ok ()) (.ok ())
  | unclosed (cause : UnitOfWorkError) (k : Host σ)
      (refused : (harness.unitOfWork.finish k).1 = .error cause)
      (silent : published h.app = published ended.app) :
      Settled harness job fire published ended queued h (.ok ())
        (.error (failed harness.policy job fire (commitError cause)))
  | stopped (stop : Stop) (silent : published h.app = published ended.app) :
      Settled harness job fire published ended queued h (.error stop)
        (.error (failed harness.policy job fire stop.error))

/-- A run from one host to another, with this answer, whose body began with this context there. -/
structure Passage (harness : Harness σ) (seen : σ → τ) (published : σ → List OutboundEvent)
    (job : Job σ) (fire : FireContext) (h h' : Host σ) (answer : Except DispatchError Unit)
    (context : JobContext) (begun : Host σ) : Prop where
  tenant : context.run.tenant = fire.data.owner?
  data : context.data = fire.data
  before : Unmoved seen published h begun
  after : seen h'.app = seen ((job.body context).execute begun).2.app
  settled :
    let ended := (job.body context).execute begun
    Settled harness job fire published ended.2 ended.1.2 h' ended.1.1 answer

section

variable {harness : Harness σ} {seen : σ → τ} {published : σ → List OutboundEvent} {job : Job σ}
variable {fire : FireContext} {h h' begun ended : Host σ} {answer : Except DispatchError Unit}
variable {context : JobContext} {ending : Except Stop Unit} {queued : Outbox}

theorem Passage.settles
    (passage : Passage harness seen published job fire h h' answer context begun)
    (hbody : (job.body context).execute begun = ((ending, queued), ended)) :
    seen h'.app = seen ended.app ∧
      Settled harness job fire published ended queued h' ending answer := by
  have hafter := passage.after
  have hsettled := passage.settled
  rw [hbody] at hafter
  simp only [hbody] at hsettled
  exact ⟨hafter, hsettled⟩

theorem Settled.succeeds (closes : ∀ k, (harness.unitOfWork.finish k).1 = .ok ())
    (settled : Settled harness job fire published ended queued h (.ok ()) answer) :
    answer = .ok () ∧ published h.app = published ended.app ++ queued := by
  cases settled with
  | sent spread => exact ⟨rfl, spread⟩
  | unclosed cause k refused => exact nomatch (closes k).symm.trans refused

theorem Settled.fails {stop : Stop}
    (settled : Settled harness job fire published ended queued h (.error stop) answer) :
    answer = .error (failed harness.policy job fire stop.error) ∧
      published h.app = published ended.app := by
  cases settled with
  | stopped _ silent => exact ⟨rfl, silent⟩

end

namespace Harness

variable {harness : Harness σ} {seen : σ → τ} {published : σ → List OutboundEvent}
variable {job : Job σ} {fire : FireContext} {run : JobRun}

private theorem retreat_gives (hrun : run.key = fire.key ∧ run.attempt = fire.refireCount)
    (stop : Stop) (events : Outbox) :
    Gives (harness.retreat job run stop events)
      (· = failed harness.policy job fire stop.error) := by
  have hfinish : Gives (σ := σ) run.finish fun next =>
      next.key = fire.key ∧ next.attempt = fire.refireCount := Gives.after fun _ => Gives.pure hrun
  refine hfinish.bind fun next hnext => Gives.after fun _ => ?_
  exact (onFailure_gives harness job fire hnext stop.error).bind fun _ hfailure =>
    Gives.after fun _ => Gives.pure hfailure

namespace Conveys

variable (harness seen published job) in
theorem conclude_failed (hrun : run.key = fire.key ∧ run.attempt = fire.refireCount)
    (events : Outbox) (cause : UnitOfWorkError) (h : Host σ) :
    let r := harness.conclude job run events (.error cause) h
    r.1 = .error (failed harness.policy job fire (commitError cause)) ∧
      Unmoved seen published h r.2 := by
  have kind := Act.Beside.composes seen published
  have hbeside : Act.Beside seen published (harness.conclude job run events (.error cause)) :=
    kind.bind (kind.discard events) fun _ =>
      kind.bind (kind.onFailure run _) fun _ => kind.pure _
  refine ⟨?_, hbeside h⟩
  exact congrArg Except.error (onFailure_gives harness job fire hrun (commitError cause) _)

section

variable (conveys : harness.Conveys seen published)

include conveys

theorem send_all (events : Outbox) (h : Host σ) : ∃ sent,
    (Outbox.send harness.bus events h).1 = .ok sent ∧
      seen (Outbox.send harness.bus events h).2.app = seen h.app ∧
      published (Outbox.send harness.bus events h).2.app = published h.app ++ events := by
  unfold Outbox.send
  cases events with
  | nil => exact ⟨0, rfl, rfl, (List.append_nil _).symm⟩
  | cons first rest =>
    obtain ⟨⟨sent, hsent⟩, hseen, hpublished⟩ := conveys.accepts (first :: rest) h
    rw [if_neg (by simp), Engine.bind_run, hsent]
    exact ⟨sent, rfl, hseen, hpublished⟩

private theorem conclude_closed (job : Job σ) (run : JobRun) (events : Outbox) (h : Host σ) :
    let r := harness.conclude job run events (.ok ()) h
    r.1 = .ok () ∧ seen r.2.app = seen h.app ∧ published r.2.app = published h.app ++ events := by
  obtain ⟨sent, hsent, hseen, hpublished⟩ := conveys.send_all events h
  change (harness.flush run events h).1 = .ok () ∧
    seen (harness.flush run events h).2.app = seen h.app ∧
    published (harness.flush run events h).2.app = published h.app ++ events
  unfold Harness.flush
  rw [Engine.bind_run, hsent]
  exact ⟨rfl, hseen, hpublished⟩

private theorem depart_tail (job : Job σ) (started : Instant) (result : Except DispatchError Unit) :
    Act.Beside seen published (do
      harness.cleanup job false started
      Act.leaveSpan
      return result : Act σ (Except DispatchError Unit)) := by
  have kind := Act.Beside.composes seen published
  have hcleanup : Act.Beside seen published (harness.cleanup job false started) :=
    kind.bind (kind.leave conveys.leave) fun _ =>
      kind.bind (kind.pure ()) fun _ => kind.reportTime started
  exact kind.bind hcleanup fun _ => kind.bind (kind.still fun _ => rfl) fun _ => kind.pure _

private theorem depart_run (job : Job σ) (run : JobRun) (started : Instant) (events : Outbox)
    (closed : Except UnitOfWorkError Unit) (h : Host σ) :
    let concluded := harness.conclude job run events closed h
    let r := harness.depart job run started events closed h
    r.1 = concluded.1 ∧ Unmoved seen published concluded.2 r.2 := by
  intro concluded
  exact ⟨rfl, conveys.depart_tail job started concluded.1 concluded.2⟩

theorem wrapUp_ok (hrun : run.key = fire.key ∧ run.attempt = fire.refireCount)
    (started : Instant) (owns : Bool) (events : Outbox) (h : Host σ) :
    let r := harness.wrapUp job run started owns (.ok ()) events h
    seen r.2.app = seen h.app ∧
      Settled harness job fire published h events r.2 (.ok ()) r.1 := by
  have kind := Act.Beside.composes seen published
  let finished := run.finish h
  have hrun' : finished.1.key = fire.key ∧ finished.1.attempt = fire.refireCount := hrun
  have hfinished : Unmoved seen published h finished.2 := ⟨rfl, rfl⟩
  let committed := harness.commit owns finished.2
  have hcommitted : Unmoved seen published h committed.2 :=
    hfinished.trans (kind.commit conveys.finish owns finished.2)
  intro r
  have hr : r = harness.depart job finished.1 started events committed.1 committed.2 := rfl
  obtain ⟨hanswer, hdeparted⟩ :=
    conveys.depart_run job finished.1 started events committed.1 committed.2
  rw [← hr] at hanswer hdeparted
  rw [hanswer]
  cases hclosed : committed.1 with
  | ok x =>
    rw [hclosed] at hdeparted
    obtain ⟨hok, hseen, hspread⟩ := conveys.conclude_closed job finished.1 events committed.2
    rw [hok]
    refine ⟨hdeparted.1.trans (hseen.trans hcommitted.1), .sent ?_⟩
    rw [hdeparted.2, hspread, hcommitted.2]
  | error cause =>
    rw [hclosed] at hdeparted
    obtain ⟨herror, hconcluded⟩ :=
      conclude_failed harness seen published job hrun' events cause committed.2
    have hwhole := (hcommitted.trans hconcluded).trans hdeparted
    -- a run that has not opened a unit has none to close, and so this cannot fail
    have hrefused : (harness.unitOfWork.finish finished.2).1 = .error cause := by
      cases owns with
      | true => exact hclosed
      | false => cases hclosed
    rw [herror]
    exact ⟨hwhole.1, .unclosed cause finished.2 hrefused hwhole.2⟩

theorem wrapUp_stopped (hrun : run.key = fire.key ∧ run.attempt = fire.refireCount)
    (started : Instant) (owns : Bool) (stop : Stop) (events : Outbox) (h : Host σ) :
    let r := harness.wrapUp job run started owns (.error stop) events h
    seen r.2.app = seen h.app ∧
      Settled harness job fire published h events r.2 (.error stop) r.1 := by
  have kind := Act.Beside.composes seen published
  have hbeside : Act.Beside seen published
      (harness.wrapUp job run started owns (.error stop) events) :=
    kind.bind (kind.retreat conveys.leave _ run stop events) fun _ =>
      kind.bind (kind.rollback conveys.abort owns) fun _ =>
        kind.bind (kind.reportTime started) fun _ =>
          kind.bind (kind.still fun _ => rfl) fun _ => kind.pure _
  intro r
  have hanswer : r.1 = .error (failed harness.policy job fire stop.error) :=
    congrArg Except.error (retreat_gives hrun stop events h)
  obtain ⟨hseen, hsilent⟩ := hbeside h
  rw [hanswer]
  exact ⟨hseen, .stopped stop hsilent⟩

private theorem wrapUp_settles (job : Job σ)
    (hrun : run.key = fire.key ∧ run.attempt = fire.refireCount) (started : Instant) (owns : Bool)
    (ended : Except Stop Unit) (events : Outbox) (h : Host σ) :
    let r := harness.wrapUp job run started owns ended events h
    seen r.2.app = seen h.app ∧ Settled harness job fire published h events r.2 ended r.1 := by
  cases ended with
  | ok x => exact conveys.wrapUp_ok hrun started owns events h
  | error stop => exact conveys.wrapUp_stopped hrun started owns stop events h

theorem run_passes (job : Job σ) (fire : FireContext) (h : Host σ) :
    let r := harness.run job fire h
    ∃ context begun, Passage harness seen published job fire h r.2 r.1 context begun := by
  have kind := Act.Beside.composes seen published
  let arrival := harness.arrive job fire h
  let begun := harness.unitOfWork.begin arrival.2
  have hbefore : Unmoved seen published h begun.2 :=
    (kind.arrive conveys.enter job fire h).trans (kind.begin conveys.begin arrival.2)
  have hrun : arrival.1.1.key = fire.key ∧ arrival.1.1.attempt = fire.refireCount :=
    start_gives fire h
  let context : JobContext :=
    { run := arrival.1.1, data := fire.data, context := .ofRun arrival.1.1 }
  let ended := (job.body context).execute begun.2
  have hwhole : harness.run job fire h = harness.wrapUp job arrival.1.1 arrival.1.2 begun.1
      ended.1.1 ended.1.2 ended.2 := by
    rw [Harness.run_eq]
    rfl
  obtain ⟨hseen, hsettled⟩ :=
    conveys.wrapUp_settles job hrun arrival.1.2 begun.1 ended.1.1 ended.1.2 ended.2
  rw [hwhole]
  exact ⟨context, begun.2, start_tenant fire h, rfl, hbefore, hseen, hsettled⟩

end

end Conveys

end Harness

end JobEngine
