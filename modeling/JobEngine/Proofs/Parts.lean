import JobEngine.Harness
/-! A run does to the application what its parts do: the body, the unit of work, the bus and the
request scope. The harness itself only reads the clock, makes identifiers and writes to the log. -/

namespace JobEngine

variable {σ α β : Type} {C : {α : Type} → Act σ α → Prop}

theorem TriggerData.readOwner_app (data : TriggerData) (h : Host σ) :
    (data.readOwner h).2.app = h.app := by
  unfold TriggerData.readOwner
  cases data.get? TriggerData.ownerId with
  | none => rfl
  | some raw =>
    cases hraw : TenantKey.ofText raw <;> (simp only [hraw]; rfl)

theorem TriggerData.readLogLevel_app (data : TriggerData) (h : Host σ) :
    (data.readLogLevel h).2.app = h.app := by
  unfold TriggerData.readLogLevel
  cases data.get? TriggerData.ownerLogLevel with
  | none => rfl
  | some raw =>
    cases hraw : Level.ofText raw <;> (simp only [hraw]; rfl)

/-- A kind of acts. It has all that leave the application alone, and those that follow one another
when each is of the kind. -/
structure Composes (C : {α : Type} → Act σ α → Prop) : Prop where
  still : ∀ {α : Type} {a : Act σ α}, (∀ h, (a h).2.app = h.app) → C a
  bind : ∀ {α β : Type} {a : Act σ α} {f : α → Act σ β}, C a → (∀ x, C (f x)) → C (a >>= f)

namespace Composes

theorem pure (kind : Composes C) (x : α) : C (Pure.pure x : Act σ α) := kind.still fun _ => rfl

theorem log (kind : Composes C) (c : Component) (l : Level) (message : String)
    (fields : Log.Fields) : C (Act.log c l message fields : Act σ Unit) := kind.still fun _ => rfl

theorem now (kind : Composes C) : C (Act.now : Act σ Instant) := kind.still fun _ => rfl

end Composes

def Act.Triple (P : σ → Prop) (a : Act σ α) (Q : α → σ → Prop) : Prop :=
  ∀ h, P h.app → Q (a h).1 (a h).2.app

abbrev Act.Keeps (P : σ → Prop) (a : Act σ α) : Prop := Act.Triple P a fun _ => P

namespace Act.Triple

variable {P P' : σ → Prop} {a : Act σ α} {Q Q' : α → σ → Prop}

theorem bind {f : α → Act σ β} {R : β → σ → Prop} (ha : Triple P a Q)
    (hf : ∀ x, Triple (Q x) (f x) R) : Triple P (a >>= f) R :=
  fun h hP => hf _ (a h).2 (ha h hP)

theorem mono (ha : Triple P a Q) (hP : ∀ s, P' s → P s) (hQ : ∀ x s, Q x s → Q' x s) :
    Triple P' a Q' := fun h h' => hQ _ _ (ha h (hP _ h'))

theorem pure {x : α} (h : ∀ s, P s → Q x s) : Triple P (Pure.pure x) Q := fun _ => h _

theorem of_exists {ι : Type} {P : ι → σ → Prop} (h : ∀ i, Triple (P i) a Q) :
    Triple (fun s => ∃ i, P i s) a Q := fun host hP => hP.elim fun i hi => h i host hi

theorem assuming {C : Prop} (h : C → Triple P a Q) : Triple (fun s => C ∧ P s) a Q :=
  fun host hP => h hP.1 host hP.2

end Act.Triple

theorem Act.keeps_composes (P : σ → Prop) : Composes (Act.Keeps (σ := σ) P) where
  still h host hP := by
    rw [h]
    exact hP
  bind ha hf := ha.bind hf

/-- The parts of a harness and a job are acts of some kind. -/
structure Harness.MadeOf (C : {α : Type} → Act σ α → Prop) (h : Harness σ) (job : Job σ) :
    Prop where
  enter : ∀ scope ∈ h.requestScope, ∀ context, C (scope.enter context)
  leave : ∀ scope ∈ h.requestScope, C scope.leave
  begin : ∀ u ∈ h.unitOfWork, C u.begin
  finish : ∀ u ∈ h.unitOfWork, C u.finish
  abort : ∀ u ∈ h.unitOfWork, C u.abort
  publish : ∀ events, C (h.bus.publishBatch events)
  body : ∀ context, C (job.body context).execute

namespace Composes

variable {harness : Harness σ} {job : Job σ} {scope : WorkScope σ}

theorem begin (kind : Composes C) (hbegin : ∀ u ∈ scope, C u.begin) : C scope.begin := by
  cases scope with
  | none => exact kind.pure false
  | some u =>
    apply kind.bind (hbegin u rfl)
    intro r
    split
    · exact kind.pure true
    · exact kind.bind (kind.log _ _ _ _) fun _ => kind.pure false
    · exact kind.bind (kind.log _ _ _ _) fun _ => kind.pure false

theorem finish (kind : Composes C) (hfinish : ∀ u ∈ scope, C u.finish) : C scope.finish := by
  cases scope with
  | none => exact kind.pure _
  | some u =>
    apply kind.bind (hfinish u rfl)
    intro r
    split
    · exact kind.bind (kind.log _ _ _ _) fun _ => kind.pure _
    · exact kind.pure _

theorem abort (kind : Composes C) (habort : ∀ u ∈ scope, C u.abort) : C scope.abort := by
  cases scope with
  | none => exact kind.pure ()
  | some u =>
    apply kind.bind (habort u rfl)
    intro r
    split
    · exact kind.pure ()
    · exact kind.log _ _ _ _
    · exact kind.log _ _ _ _

theorem oneByOne (kind : Composes C) {publish : OutboundEvent → Act σ (Except String Unit)}
    (hpublish : ∀ event, C (publish event)) (sent : Nat) (events : List OutboundEvent) :
    C (EventBus.oneByOne publish sent events) := by
  induction events generalizing sent with
  | nil => exact kind.pure _
  | cons event rest ih =>
    apply kind.bind (hpublish event)
    intro r
    cases r with
    | error reason => exact kind.pure _
    | ok x => exact ih (sent + 1)

theorem send (kind : Composes C) {bus : EventBus σ OutboundEvent}
    (hpublish : ∀ events, C (bus.publishBatch events)) (pending : Outbox) :
    C (Outbox.send bus pending) := by
  unfold Outbox.send
  split
  · exact kind.pure _
  · apply kind.bind (hpublish pending)
    intro r
    cases r with
    | error e => exact kind.pure _
    | ok sent => exact kind.bind (kind.log _ _ _ _) fun _ => kind.pure _

theorem discard (kind : Composes C) (pending : Outbox) : C (pending.discard : Act σ Nat) := by
  unfold Outbox.discard
  split
  · exact kind.bind (kind.log _ _ _ _) fun _ => kind.pure _
  · exact kind.pure _

theorem onFailure (kind : Composes C) (run : JobRun) (cause : JobError) :
    C (harness.onFailure job run cause) := by
  unfold Harness.onFailure
  simp only
  split
  · apply kind.bind
    · exact kind.bind (kind.log _ _ _ _) fun _ => kind.pure _
    · exact fun _ => kind.pure _
  · exact kind.bind (kind.log _ _ _ _) fun _ => kind.pure _

theorem commit (kind : Composes C) (hfinish : ∀ u ∈ harness.unitOfWork, C u.finish) (owns : Bool) :
    C (harness.commit owns) := by
  unfold Harness.commit
  split
  · exact kind.finish hfinish
  · exact kind.pure _

theorem conclude (kind : Composes C) (hpublish : ∀ events, C (harness.bus.publishBatch events))
    (run : JobRun) (events : Outbox) (closed : Except UnitOfWorkError Unit) :
    C (harness.conclude job run events closed) := by
  cases closed with
  | error e =>
    exact kind.bind (kind.discard events) fun _ =>
      kind.bind (kind.onFailure run _) fun _ => kind.pure _
  | ok x =>
    apply kind.bind (kind.send hpublish events)
    intro r
    cases r with
    | ok sent => exact kind.bind (kind.log _ _ _ _) fun _ => kind.pure _
    | error e => exact kind.bind (kind.log _ _ _ _) fun _ => kind.pure _

theorem settle (kind : Composes C) (made : harness.MadeOf C job) (run : JobRun) (owns : Bool)
    (ended : Except Stop Unit) (events : Outbox) :
    C (harness.settle job run owns ended events) := by
  cases ended with
  | error stop =>
    exact kind.bind (kind.discard events) fun _ =>
      kind.bind (kind.onFailure run stop.error) fun _ => kind.pure _
  | ok x =>
    apply kind.bind (kind.commit made.finish owns)
    intro closed
    exact kind.bind (kind.conclude made.publish run events closed) fun _ => kind.pure _

theorem enter (kind : Composes C)
    (henter : ∀ scope ∈ harness.requestScope, ∀ context, C (scope.enter context))
    (context : ExecutionContext) : C (harness.enter context) := by
  unfold Harness.enter
  have hspan : C (Act.enterSpan context.span) := kind.still fun _ => rfl
  cases hscope : harness.requestScope with
  | none => exact hspan
  | some scope => exact kind.bind (henter scope hscope context) fun _ => hspan

theorem announce (kind : Composes C) (run : JobRun) (fire : FireContext) :
    C (Harness.announce job run fire) := by
  apply kind.bind kind.now
  intro started
  split
  · exact kind.bind (kind.log _ _ _ _) fun _ => kind.bind (kind.log _ _ _ _) fun _ => kind.pure _
  · exact kind.bind (kind.log _ _ _ _) fun _ => kind.pure _

theorem leave (kind : Composes C) (hleave : ∀ scope ∈ harness.requestScope, C scope.leave) :
    C harness.leave := by
  unfold Harness.leave
  split
  · exact kind.pure ()
  · exact hleave _ ‹_›

theorem rollback (kind : Composes C) (habort : ∀ u ∈ harness.unitOfWork, C u.abort) (owns : Bool) :
    C (harness.rollback owns) := by
  unfold Harness.rollback
  split
  · exact kind.abort habort
  · exact kind.pure ()

theorem reportTime (kind : Composes C) (started : Instant) :
    C (Harness.reportTime job started) := by
  unfold Harness.reportTime
  split
  · exact kind.bind kind.now fun _ => kind.log _ _ _ _
  · exact kind.pure ()

theorem cleanup (kind : Composes C) (made : harness.MadeOf C job) (owns : Bool)
    (started : Instant) : C (harness.cleanup job owns started) :=
  kind.bind (kind.leave made.leave) fun _ =>
    kind.bind (kind.rollback made.abort owns) fun _ => kind.reportTime started

theorem start (kind : Composes C) (fire : FireContext) : C (JobRun.start fire : Act σ JobRun) := by
  apply kind.bind (kind.still fun _ => rfl)
  intro runId
  apply kind.bind (kind.still fire.data.readOwner_app)
  intro tenant
  apply kind.bind (kind.still fire.data.readLogLevel_app)
  intro logLevel
  exact kind.bind kind.now fun _ => kind.pure _

theorem run (kind : Composes C) (made : harness.MadeOf C job) (fire : FireContext) :
    C (harness.run job fire) := by
  apply kind.bind (kind.start fire)
  intro run
  apply kind.bind (kind.enter made.enter _)
  intro _
  apply kind.bind (kind.announce run fire)
  intro started
  apply kind.bind (kind.begin made.begin)
  intro owns
  apply kind.bind (made.body _)
  intro ended
  apply kind.bind (kind.still fun _ => rfl)
  intro run
  apply kind.bind (kind.settle made run owns ended.1 ended.2)
  intro settled
  apply kind.bind (kind.cleanup made settled.2 started)
  intro _
  exact kind.bind (kind.still fun _ => rfl) fun _ => kind.pure _

end Composes

end JobEngine
