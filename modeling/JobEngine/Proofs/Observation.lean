import JobEngine.Event.Broadcast
import JobEngine.Harness
/-! Observation of the calls that a run makes. An application under observation carries a record of
calls beside its own state, and the services of a harness are wrapped so that each call, with the
answer to it, ends up in the record. Main statement: observation changes neither what a run answers
nor what it does to the application, so that what is recorded of an observed run holds of a plain
one too. -/

namespace JobEngine

/-- What a run asks of its surroundings, and what it is told. -/
inductive Call where
  | entered (context : ExecutionContext)
  | left
  | opened (answer : Except UnitOfWorkError Unit)
  | closed (answer : Except UnitOfWorkError Unit)
  | aborted (answer : Except UnitOfWorkError Unit)
  | ran (ending : Except Stop Unit) (queued : Outbox)
  | handed (batch : List OutboundEvent)
  | delivered (event : OutboundEvent)
  | refused (reason : String)

/-- An application and the calls seen so far, the first one first. -/
structure Observed (σ : Type) where
  app : σ
  calls : List Call := []

namespace Observed

variable {σ α β : Type}

def host (h : Host (Observed σ)) : Host σ :=
  { clock := h.clock, serial := h.serial, journal := h.journal, app := h.app.app }

def fresh (h : Host σ) : Host (Observed σ) :=
  { clock := h.clock, serial := h.serial, journal := h.journal, app := { app := h.app } }

def lift (a : Act σ α) : Act (Observed σ) α := fun h =>
  let r := a (host h)
  (r.1, { clock := r.2.clock, serial := r.2.serial, journal := r.2.journal
          app := { h.app with app := r.2.app } })

def note (c : Call) : Act (Observed σ) Unit :=
  Act.modifyApp fun o => { o with calls := o.calls ++ [c] }

def noteAll : List Call → Act (Observed σ) Unit
  | [] => pure ()
  | c :: rest => do
    note c
    noteAll rest

def recorded (call : α → Call) (a : Act σ α) : Act (Observed σ) α := do
  let answer ← lift a
  note (call answer)
  return answer

end Observed

def UnitOfWork.observed (u : UnitOfWork σ) : UnitOfWork (Observed σ) where
  begin := Observed.recorded .opened u.begin
  finish := Observed.recorded .closed u.finish
  abort := Observed.recorded .aborted u.abort

def RequestScope.observed (s : RequestScope σ) : RequestScope (Observed σ) where
  enter context := Observed.recorded (fun _ => .entered context) (s.enter context)
  leave := Observed.recorded (fun _ => .left) s.leave

def Body.observed (b : Body σ Unit) : Body (Observed σ) Unit :=
  ExceptT.mk fun queued =>
    Observed.recorded (fun r => .ran r.1 r.2) (StateT.run (ExceptT.run b) queued)

def Job.observed (j : Job σ) : Job (Observed σ) where
  name := j.name
  body context := (j.body context).observed
  logsTime := j.logsTime
  classify := j.classify

/-- What events leave over: a bus that publishes one message at a time, so that a batch may stop
part of the way, or one that takes a batch whole or not at all. -/
inductive Transport (σ : Type) where
  | single (publish : OutboundEvent → Act σ (Except String Unit))
  | whole (publish : List OutboundEvent → Act σ (Except String Unit))

namespace Transport

def isWhole : Transport σ → Bool
  | .single _ => false
  | .whole _ => true

def bus : Transport σ → EventBus σ OutboundEvent
  | .single publish => .ofPublish publish
  | .whole publish =>
    { publish := fun e => publish [e]
      publishBatch := fun es => do
        match ← publish es with
        | .ok () => return .ok es.length
        | .error reason => return .error { sent := 0, reason } }

def outcome (es : List OutboundEvent) : Except String Unit → List Call
  | .ok () => es.map .delivered
  | .error reason => [.refused reason]

def recordedPublish (publish : Act σ (Except String Unit)) (es : List OutboundEvent) :
    Act (Observed σ) (Except String Unit) := do
  let answer ← Observed.lift publish
  Observed.noteAll (outcome es answer)
  return answer

def observed : Transport σ → Transport (Observed σ)
  | .single publish => .single fun e => recordedPublish (publish e) [e]
  | .whole publish => .whole fun es => recordedPublish (publish es) es

def batchesNoted (b : EventBus (Observed σ) OutboundEvent) : EventBus (Observed σ) OutboundEvent :=
  { b with
    publishBatch := fun es => do
      Observed.note (.handed es)
      b.publishBatch es }

end Transport

/-- All that a harness is made of, the bus being one that keeps the contract of batches. -/
structure Surroundings (σ : Type) where
  policy : RetryPolicy
  transport : Transport σ
  unitOfWork : WorkScope σ := none
  requestScope : Option (RequestScope σ) := none

namespace Surroundings

def harness (s : Surroundings σ) : Harness σ where
  policy := s.policy
  bus := s.transport.bus
  unitOfWork := s.unitOfWork
  requestScope := s.requestScope

def observed (s : Surroundings σ) : Harness (Observed σ) where
  policy := s.policy
  bus := Transport.batchesNoted s.transport.observed.bus
  unitOfWork := s.unitOfWork.map (·.observed)
  requestScope := s.requestScope.map (·.observed)

/-- A run under observation: what it answers, and the calls it made in their order. -/
def watch (s : Surroundings σ) (job : Job σ) (fire : FireContext) (h : Host σ) :
    Except DispatchError Unit × List Call :=
  let r := s.observed.run job.observed fire (Observed.fresh h)
  (r.1, r.2.app.calls)

end Surroundings

theorem Broadcast.service_eq_bus (p : Part σ (Broadcast OutboundEvent)) :
    Broadcast.service p = (Transport.whole fun es => do
      p.modify (Broadcast.deliver · es)
      return .ok ()).bus := rfl

/-- An act under observation follows a plain one: it answers the same and does the same to the
application, and what it answers fits the calls it records. -/
structure Follows (b : Act (Observed σ) α) (a : Act σ α) (spec : α → List Call → Prop) : Prop where
  same : ∀ h, a (Observed.host h) = ((b h).1, Observed.host (b h).2)
  fits : ∀ h, ∃ calls, (b h).2.app.calls = h.app.calls ++ calls ∧ spec (b h).1 calls

def Quiet (_ : α) (calls : List Call) : Prop := calls = []

namespace Follows

variable {σ α β : Type} {b : Act (Observed σ) α} {a : Act σ α}

theorem mono {P Q : α → List Call → Prop} (h : Follows b a P) (hPQ : ∀ x l, P x l → Q x l) :
    Follows b a Q := by
  refine ⟨h.same, fun host => ?_⟩
  obtain ⟨calls, hcalls, hspec⟩ := h.fits host
  exact ⟨calls, hcalls, hPQ _ _ hspec⟩

theorem bind {P : α → List Call → Prop} {g : α → Act (Observed σ) β} {f : α → Act σ β}
    {Q : β → List Call → Prop} (hb : Follows b a P)
    (hg : ∀ x front, P x front → Follows (g x) (f x) fun y back => Q y (front ++ back)) :
    Follows (b >>= g) (a >>= f) Q := by
  refine ⟨fun host => ?_, fun host => ?_⟩
  · obtain ⟨front, -, hP⟩ := hb.fits host
    change f (a (Observed.host host)).1 (a (Observed.host host)).2 = _
    rw [hb.same]
    exact (hg _ front hP).same _
  · obtain ⟨front, hfront, hP⟩ := hb.fits host
    obtain ⟨back, hback, hQ⟩ := (hg _ front hP).fits (b host).2
    refine ⟨front ++ back, ?_, hQ⟩
    rw [← List.append_assoc, ← hfront]
    exact hback

theorem fits_bind {P : α → List Call → Prop} {g : α → Act (Observed σ) β} {f : α → Act σ β}
    {Q : α → β → List Call → Prop} (hb : Follows b a P)
    (hg : ∀ x front, P x front → Follows (g x) (f x) (Q x)) (h : Host (Observed σ)) :
    let x := (a (Observed.host h)).1
    ∃ front back, ((b >>= g) h).2.app.calls = h.app.calls ++ (front ++ back) ∧ P x front ∧
      Q x ((b >>= g) h).1 back := by
  obtain ⟨front, hfront, hP⟩ := hb.fits h
  obtain ⟨back, hback, hQ⟩ := (hg _ front hP).fits (b h).2
  rw [hb.same]
  refine ⟨front, back, ?_, hP, hQ⟩
  rw [← List.append_assoc, ← hfront]
  exact hback

theorem after {g : α → Act (Observed σ) β} {f : α → Act σ β} {Q : β → List Call → Prop}
    (hb : Follows b a Quiet) (hg : ∀ x, Follows (g x) (f x) Q) :
    Follows (b >>= g) (a >>= f) Q := by
  refine hb.bind ?_
  rintro x _ rfl
  exact hg x

theorem pure {x : α} {P : α → List Call → Prop} (hx : P x []) :
    Follows (pure x : Act (Observed σ) α) (pure x) P :=
  ⟨fun _ => rfl, fun h => ⟨[], (List.append_nil h.app.calls).symm, hx⟩⟩

theorem lift (a : Act σ α) : Follows (Observed.lift a) a Quiet :=
  ⟨fun _ => rfl, fun _ => ⟨[], by simp [Observed.lift], rfl⟩⟩

theorem recorded (call : α → Call) (a : Act σ α) :
    Follows (Observed.recorded call a) a fun x l => l = [call x] :=
  ⟨fun _ => rfl, fun _ => ⟨_, rfl, rfl⟩⟩

theorem noting {P : α → List Call → Prop} (c : Call) (hb : Follows b a fun x l => P x (c :: l)) :
    Follows (do Observed.note c; b) a P := by
  change Follows (Observed.recorded (fun _ => c) (Pure.pure ()) >>= fun _ => b)
    (Pure.pure () >>= fun _ => a) P
  refine (recorded _ _).bind ?_
  rintro _ _ rfl
  exact hb

theorem now : Follows (σ := σ) Act.now Act.now Quiet :=
  ⟨fun _ => rfl, fun _ => ⟨[], by simp [Act.now], rfl⟩⟩

theorem freshId : Follows (σ := σ) Act.freshId Act.freshId Quiet :=
  ⟨fun _ => rfl, fun _ => ⟨[], by simp [Act.freshId], rfl⟩⟩

theorem log (c : Component) (l : Level) (message : String) (fields : Log.Fields) :
    Follows (σ := σ) (Act.log c l message fields) (Act.log c l message fields) Quiet :=
  ⟨fun _ => rfl, fun _ => ⟨[], by simp [Act.log], rfl⟩⟩

theorem enterSpan (s : Log.NewSpan) : Follows (σ := σ) (Act.enterSpan s) (Act.enterSpan s) Quiet :=
  ⟨fun _ => rfl, fun _ => ⟨[], by simp [Act.enterSpan], rfl⟩⟩

theorem leaveSpan : Follows (σ := σ) Act.leaveSpan Act.leaveSpan Quiet :=
  ⟨fun _ => rfl, fun _ => ⟨[], by simp [Act.leaveSpan], rfl⟩⟩

end Follows

end JobEngine
