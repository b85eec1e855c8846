import JobEngine.Proofs.Parts
import JobEngine.UnitOfWork.Threads
/-! The units of work of threads, and what a run does to them. Of all that a run does beside its
body, two calls touch the units: the one that may open a unit, and the one that closes it. -/

namespace JobEngine

namespace ThreadUnits

variable {u : ThreadUnits} {t : ThreadName} {owns : Bool}

structure Balanced (u : ThreadUnits) : Prop where
  nodup : u.active.Nodup
  opened : u.opened = u.closed + u.active.length

private theorem begin_of_active (h : u.isActive t) :
    begin t u = (.error .alreadyActive, u) := if_pos h

theorem begin_of_idle (h : u.isActive t = false) :
    begin t u = (.ok (), { u with active := t :: u.active, opened := u.opened + 1 }) :=
  if_neg (Bool.eq_false_iff.mp h)

theorem finish_of_active (h : u.isActive t) :
    finish t u = (.ok (), { u with active := u.active.erase t, closed := u.closed + 1 }) := if_pos h

private theorem abort_of_active (h : u.isActive t) :
    (abort t u).2 = { (finish t u).2 with aborted := u.aborted + 1 } := by
  unfold abort
  rw [finish_of_active h]

def openedBy (u : ThreadUnits) (t : ThreadName) (owns : Bool) : ThreadUnits :=
  if owns then (begin t u).2 else u

/-- The units when a run is over, by whether it had opened one and whether its body succeeded. -/
def closedBy (u : ThreadUnits) (t : ThreadName) (owns succeeded : Bool) : ThreadUnits :=
  if owns then if succeeded then (finish t u).2 else (abort t u).2 else u

section

variable (idle : owns → u.isActive t = false)

include idle

theorem Balanced.openedBy (h : u.Balanced) : (u.openedBy t owns).Balanced := by
  cases owns with
  | false => exact h
  | true =>
    have hidle := idle rfl
    unfold ThreadUnits.openedBy
    rw [if_pos rfl, begin_of_idle hidle]
    constructor
    · apply List.nodup_cons.mpr
      exact ⟨by simpa [isActive] using hidle, h.nodup⟩
    · have hopened := h.opened
      simp only [List.length_cons]
      omega

@[simp] theorem isActive_openedBy (k : ThreadName) :
    (u.openedBy t owns).isActive k = (u.isActive k || owns && k == t) := by
  cases owns with
  | false => simp [openedBy]
  | true =>
    unfold openedBy
    rw [if_pos rfl, begin_of_idle (idle rfl)]
    apply Bool.eq_iff_iff.mpr
    simp [isActive, or_comm]

@[simp] theorem aborted_openedBy : (u.openedBy t owns).aborted = u.aborted := by
  cases owns with
  | false => rfl
  | true =>
    unfold openedBy
    rw [if_pos rfl, begin_of_idle (idle rfl)]

end

section

variable {succeeded : Bool} (active : owns → u.isActive t)

include active

theorem closedBy_eq : u.closedBy t owns succeeded =
    { u with
      active := if owns then u.active.erase t else u.active
      closed := if owns then u.closed + 1 else u.closed
      aborted := if owns && !succeeded then u.aborted + 1 else u.aborted } := by
  cases owns with
  | false => rfl
  | true =>
    unfold closedBy
    rw [abort_of_active (active rfl), finish_of_active (active rfl)]
    cases succeeded <;> rfl

theorem Balanced.closedBy (h : u.Balanced) : (u.closedBy t owns succeeded).Balanced := by
  rw [closedBy_eq active]
  cases owns with
  | false => exact ⟨h.nodup, h.opened⟩
  | true =>
    have hmem : t ∈ u.active := by simpa [isActive] using active rfl
    have hpos := List.length_pos_of_mem hmem
    have hopened := h.opened
    constructor
    · exact h.nodup.erase t
    · simp only [↓reduceIte, List.length_erase_of_mem hmem]
      omega

theorem isActive_closedBy (h : u.Balanced) (k : ThreadName) :
    (u.closedBy t owns succeeded).isActive k = (u.isActive k && !(owns && k == t)) := by
  rw [closedBy_eq active]
  cases owns with
  | false => simp [isActive]
  | true =>
    apply Bool.eq_iff_iff.mpr
    simp [isActive, h.nodup.mem_erase_iff, and_comm]

@[simp] theorem aborted_closedBy : (u.closedBy t owns succeeded).aborted =
    u.aborted + if owns && !succeeded then 1 else 0 := by
  rw [closedBy_eq active]
  cases owns && !succeeded <;> rfl

end

end ThreadUnits

variable {σ τ α β : Type}

def Part.Turns (p : Part σ τ) (f : τ → τ) (a : Act σ α) : Prop :=
  ∀ h, p.get (a h).2.app = f (p.get h.app)

def Part.Spares (p : Part σ τ) (a : Act σ α) : Prop := ∀ h, p.get (a h).2.app = p.get h.app

theorem Part.spares_composes (p : Part σ τ) : Composes p.Spares where
  still h host := by rw [h]
  bind ha hf host := (hf _ _).trans (ha host)

theorem Part.turns_run {p : Part σ τ} (lawful : ∀ t a, p.get (p.put t a) = t)
    (step : τ → α × τ) : p.Turns (fun t => (step t).2) (p.run step) := fun _ => lawful _ _

theorem Part.Spares.turns {p : Part σ τ} {a : Act σ α} (ha : p.Spares a) : p.Turns id a := ha

theorem Part.Turns.after {p : Part σ τ} {f : τ → τ} {a : Act σ α} {next : α → Act σ β}
    (ha : p.Turns f a) (hnext : ∀ x, p.Spares (next x)) : p.Turns f (a >>= next) := fun h =>
  (hnext _ _).trans (ha h)

namespace WorkScope

variable (u : UnitOfWork σ) (h : Host σ)

private theorem begin_run : WorkScope.begin (some u) h = (match (u.begin h).1 with
    | .ok () => return true
    | .error .alreadyActive => do
      Act.log .jobs .debug "joining existing unit of work"
      return false
    | .error e => do
      Act.log .jobs .warn "could not open unit of work, running without one"
        [("error", .shown e.message)]
      return false : Act σ Bool) (u.begin h).2 := rfl

theorem begin_some : (WorkScope.begin (some u) h).1 = (u.begin h).1.isOk ∧
    (WorkScope.begin (some u) h).2.app = (u.begin h).2.app := by
  rw [begin_run]
  cases (u.begin h).1 with
  | ok x => exact ⟨rfl, rfl⟩
  | error e => cases e <;> exact ⟨rfl, rfl⟩

private theorem finish_run : WorkScope.finish (some u) h = (match (u.finish h).1 with
    | .error .notActive => do
      Act.log .jobs .debug "unit of work already closed"
      return .ok ()
    | other => return other : Act σ (Except UnitOfWorkError Unit)) (u.finish h).2 := rfl

/-- A unit that is closed already counts as closed. -/
def excused : Except UnitOfWorkError Unit → Except UnitOfWorkError Unit
  | .error .notActive => .ok ()
  | other => other

theorem finish_some : (WorkScope.finish (some u) h).1 = excused (u.finish h).1 ∧
    (WorkScope.finish (some u) h).2.app = (u.finish h).2.app := by
  rw [finish_run]
  cases (u.finish h).1 with
  | ok x => exact ⟨rfl, rfl⟩
  | error e => cases e <;> exact ⟨rfl, rfl⟩

private theorem abort_run : WorkScope.abort (some u) h = (match (u.abort h).1 with
    | .ok () => pure ()
    | .error .notActive => Act.log .jobs .debug "unit of work already closed"
    | .error e => Act.log .jobs .warn "failed to abort unit of work"
      [("error", .shown e.message)] : Act σ Unit) (u.abort h).2 := rfl

theorem abort_some : (WorkScope.abort (some u) h).2.app = (u.abort h).2.app := by
  rw [abort_run]
  cases (u.abort h).1 with
  | ok x => rfl
  | error e => cases e <;> rfl

end WorkScope

namespace Harness

/-! The parts of a run between the calls of the unit of work. -/

def arrive (h : Harness σ) (job : Job σ) (fire : FireContext) : Act σ (JobRun × Instant) := do
  let run ← JobRun.start fire
  h.enter (.ofRun run)
  return (run, ← announce job run fire)

def depart (h : Harness σ) (job : Job σ) (run : JobRun) (started : Instant) (events : Outbox)
    (closed : Except UnitOfWorkError Unit) : Act σ (Except DispatchError Unit) := do
  let result ← h.conclude job run events closed
  h.cleanup job false started
  Act.leaveSpan
  return result

def retreat (h : Harness σ) (job : Job σ) (run : JobRun) (stop : Stop) (events : Outbox) :
    Act σ DispatchError := do
  let run ← run.finish
  let _ ← events.discard
  let failure ← h.onFailure job run stop.error
  h.leave
  return failure

def wrapUp (h : Harness σ) (job : Job σ) (run : JobRun) (started : Instant) (owns : Bool)
    (ended : Except Stop Unit) (events : Outbox) : Act σ (Except DispatchError Unit) :=
  match ended with
  | .ok () => do
    let run ← run.finish
    let closed ← h.commit owns
    h.depart job run started events closed
  | .error stop => do
    let failure ← h.retreat job run stop events
    h.rollback owns
    reportTime job started
    Act.leaveSpan
    return .error failure

theorem wrapUp_eq (h : Harness σ) (job : Job σ) (run : JobRun) (started : Instant) (owns : Bool)
    (ended : Except Stop Unit) (events : Outbox) :
    h.wrapUp job run started owns ended events = (do
      let run ← run.finish
      let (result, owes) ← h.settle job run owns ended events
      h.cleanup job owes started
      Act.leaveSpan
      return result) := by
  cases ended <;> rfl

theorem run_eq (h : Harness σ) (job : Job σ) (fire : FireContext) :
    h.run job fire = (do
      let (run, started) ← h.arrive job fire
      let owns ← h.unitOfWork.begin
      let context : JobContext := { run, data := fire.data, context := .ofRun run }
      let (ended, events) ← (job.body context).execute
      h.wrapUp job run started owns ended events) := by
  simp only [wrapUp_eq]
  rfl

structure Midway where
  run : JobRun
  started : Instant
  owns : Bool
  ended : Except Stop Unit
  events : Outbox

def midway (h : Harness σ) (job : Job σ) (fire : FireContext) : Act σ Midway := do
  let (run, started) ← h.arrive job fire
  let owns ← h.unitOfWork.begin
  let (ended, events) ← (job.body { run, data := fire.data, context := .ofRun run }).execute
  return { run, started, owns, ended, events }

theorem run_midway (h : Harness σ) (job : Job σ) (fire : FireContext) :
    h.run job fire = (do
      let m ← h.midway job fire
      h.wrapUp job m.run m.started m.owns m.ended m.events) := by
  rw [run_eq]
  rfl

end Harness

namespace Composes

variable {C : {α : Type} → Act σ α → Prop} {harness : Harness σ}

theorem arrive (kind : Composes C)
    (henter : ∀ scope ∈ harness.requestScope, ∀ context, C (scope.enter context))
    (job : Job σ) (fire : FireContext) : C (harness.arrive job fire) := by
  apply kind.bind (kind.start fire)
  intro run
  apply kind.bind (kind.enter henter _)
  intro _
  exact kind.bind (kind.announce run fire) fun _ => kind.pure _

theorem depart (kind : Composes C) (hleave : ∀ scope ∈ harness.requestScope, C scope.leave)
    (hpublish : ∀ events, C (harness.bus.publishBatch events)) (job : Job σ) (run : JobRun)
    (started : Instant) (events : Outbox) (closed : Except UnitOfWorkError Unit) :
    C (harness.depart job run started events closed) := by
  apply kind.bind (kind.conclude hpublish run events closed)
  intro result
  have hcleanup : C (harness.cleanup job false started) :=
    kind.bind (kind.leave hleave) fun _ =>
      kind.bind (kind.pure ()) fun _ => kind.reportTime started
  apply kind.bind hcleanup
  intro _
  exact kind.bind (kind.still fun _ => rfl) fun _ => kind.pure _

theorem retreat (kind : Composes C) (hleave : ∀ scope ∈ harness.requestScope, C scope.leave)
    (job : Job σ) (run : JobRun) (stop : Stop) (events : Outbox) :
    C (harness.retreat job run stop events) := by
  apply kind.bind (kind.still fun _ => rfl)
  intro run
  apply kind.bind (kind.discard events)
  intro _
  apply kind.bind (kind.onFailure run stop.error)
  intro failure
  exact kind.bind (kind.leave hleave) fun _ => kind.pure _

end Composes

/-- A run with such units of work stays in the one state as long as it has none of its own open, and
in the other while it has. -/
structure Harness.Brackets (h : Harness σ) (u : UnitOfWork σ) (job : Job σ)
    (state : Bool → σ → Prop) : Prop where
  unitOfWork : h.unitOfWork = some u
  enter : ∀ scope ∈ h.requestScope, ∀ context, Act.Keeps (state false) (scope.enter context)
  leave : ∀ scope ∈ h.requestScope, ∀ owns, Act.Keeps (state owns) scope.leave
  publish : ∀ events, Act.Keeps (state false) (h.bus.publishBatch events)
  body : ∀ owns context, Act.Keeps (state owns) (job.body context).execute
  begin : Act.Triple (state false) u.begin fun r => state r.isOk
  finish : Act.Triple (state true) u.finish fun _ => state false
  abort : Act.Triple (state true) u.abort fun _ => state false

namespace Harness.Brackets

variable {h : Harness σ} {u : UnitOfWork σ} {job : Job σ} {state : Bool → σ → Prop}

section

variable (brackets : h.Brackets u job state)

include brackets

theorem opens : Act.Triple (state false) h.unitOfWork.begin state := by
  rw [brackets.unitOfWork]
  intro k hk
  obtain ⟨howns, happ⟩ := WorkScope.begin_some u k
  rw [howns, happ]
  exact brackets.begin k hk

private theorem commits (owns : Bool) :
    Act.Triple (state owns) (h.commit owns) fun _ => state false := by
  cases owns with
  | false => exact .pure fun _ hs => hs
  | true =>
    intro k hk
    unfold Harness.commit
    rw [brackets.unitOfWork, if_pos rfl, (WorkScope.finish_some u k).2]
    exact brackets.finish k hk

private theorem rollsBack (owns : Bool) :
    Act.Triple (state owns) (h.rollback owns) fun _ => state false := by
  cases owns with
  | false => exact .pure fun _ hs => hs
  | true =>
    intro k hk
    unfold Harness.rollback
    rw [brackets.unitOfWork, if_pos rfl, WorkScope.abort_some u k]
    exact brackets.abort k hk

theorem wrapUp (run : JobRun) (started : Instant) (owns : Bool) (ended : Except Stop Unit)
    (events : Outbox) :
    Act.Triple (state owns) (h.wrapUp job run started owns ended events) fun _ => state false := by
  have outside := Act.keeps_composes (state false)
  have within := Act.keeps_composes (state owns)
  cases ended with
  | ok x =>
    refine (within.still fun _ => rfl).bind fun run => (brackets.commits owns).bind fun closed => ?_
    exact outside.depart (fun scope hscope => brackets.leave scope hscope false)
      brackets.publish job run started events closed
  | error stop =>
    have hretreat : Act.Keeps (state owns) (h.retreat job run stop events) :=
      within.retreat (fun scope hscope => brackets.leave scope hscope owns) job run stop events
    refine hretreat.bind fun failure => (brackets.rollsBack owns).bind fun _ => ?_
    exact outside.bind (outside.reportTime started) fun _ =>
      outside.bind (outside.still fun _ => rfl) fun _ => outside.pure _

theorem run (fire : FireContext) : Act.Keeps (state false) (h.run job fire) := by
  have outside := Act.keeps_composes (state false)
  rw [run_eq]
  refine (outside.arrive brackets.enter job fire).bind fun arrival => brackets.opens.bind ?_
  exact fun owns => (brackets.body owns _).bind fun r =>
    brackets.wrapUp arrival.1 arrival.2 owns r.1 r.2

end

end Harness.Brackets

namespace Harness

/-- The harness opens units of that thread, if any at all, and nothing else that it uses touches the
units of threads. -/
structure OnThread (h : Harness σ) (p : Part σ ThreadUnits) (t : ThreadName) : Prop where
  unitOfWork : h.unitOfWork = none ∨ h.unitOfWork = some (ThreadUnits.service p t)
  enter : ∀ scope ∈ h.requestScope, ∀ context, p.Spares (scope.enter context)
  leave : ∀ scope ∈ h.requestScope, p.Spares scope.leave
  publish : ∀ events, p.Spares (h.bus.publishBatch events)

namespace OnThread

variable {harness : Harness σ} {p : Part σ ThreadUnits} {t : ThreadName} {job : Job σ}

section

variable (hthread : harness.OnThread p t) (lawful : ∀ u a, p.get (p.put u a) = u)

include hthread lawful

/-- A unit is opened unless there are none or the thread has one. -/
theorem begin_units (h : Host σ) :
    (harness.unitOfWork.begin h).1 =
        (harness.unitOfWork.isSome && !(p.get h.app).isActive t) ∧
      p.get (harness.unitOfWork.begin h).2.app =
        (p.get h.app).openedBy t (harness.unitOfWork.begin h).1 := by
  obtain hnone | hsome := hthread.unitOfWork
  · rw [hnone]
    exact ⟨rfl, rfl⟩
  · rw [hsome]
    cases hactive : (p.get h.app).isActive t with
    | false =>
      have hbegin := ThreadUnits.begin_of_idle hactive
      have hrun : WorkScope.begin (some (ThreadUnits.service p t)) h =
          (true, { h with app := p.put (ThreadUnits.begin t (p.get h.app)).2 h.app }) := by
        simp only [WorkScope.begin, ThreadUnits.service, Part.run, bind, StateT.bind, hbegin]
        rfl
      rw [hrun]
      exact ⟨rfl, lawful _ _⟩
    | true =>
      have hbegin := ThreadUnits.begin_of_active hactive
      have hrun : (WorkScope.begin (some (ThreadUnits.service p t)) h).1 = false ∧
          (WorkScope.begin (some (ThreadUnits.service p t)) h).2.app =
            p.put (p.get h.app) h.app := by
        simp only [WorkScope.begin, ThreadUnits.service, Part.run, bind, StateT.bind, hbegin]
        exact ⟨rfl, rfl⟩
      rw [hrun.1, hrun.2]
      exact ⟨rfl, lawful _ _⟩

theorem commit_turns {owns : Bool} (enabled : owns → harness.unitOfWork.isSome) :
    p.Turns (·.closedBy t owns true) (harness.commit owns) := by
  have kind := p.spares_composes
  cases owns with
  | false => exact (kind.pure (Except.ok ())).turns
  | true =>
    have hsome := hthread.unitOfWork.resolve_left fun hnone => by simp [hnone] at enabled
    unfold Harness.commit
    rw [hsome]
    apply (Part.turns_run lawful (ThreadUnits.finish t)).after
    intro r
    split
    · exact kind.bind (kind.log _ _ _ _) fun _ => kind.pure _
    · exact kind.pure _

theorem rollback_turns {owns : Bool} (enabled : owns → harness.unitOfWork.isSome) :
    p.Turns (·.closedBy t owns false) (harness.rollback owns) := by
  have kind := p.spares_composes
  cases owns with
  | false => exact (kind.pure ()).turns
  | true =>
    have hsome := hthread.unitOfWork.resolve_left fun hnone => by simp [hnone] at enabled
    unfold Harness.rollback
    rw [hsome]
    apply (Part.turns_run lawful (ThreadUnits.abort t)).after
    intro r
    split
    · exact kind.pure ()
    · exact kind.log _ _ _ _
    · exact kind.log _ _ _ _

end

end OnThread

end Harness

end JobEngine
