import JobEngine.Pools.Refresh
import JobEngine.Proofs.EngineSteps
import JobEngine.Statistic.History
/-! Bodies of jobs as they can be written. A body does not reach the queue of its run: it acts on
the application and emits events through its context, and what it does next may depend on all that
it has seen. Main statement: whatever a body does, what it has queued when it ends is what it
emitted, each event attributed by the context. -/

namespace JobEngine

/-- A body, as data. -/
inductive Procedure (σ α : Type) : Type 1 where
  | done (ended : Except Stop α)
  | act {β : Type} (a : Act σ β) (next : β → Procedure σ α)
  | emit (e : OutboundEvent) (next : Procedure σ α)

namespace Procedure

variable {σ α β : Type}

def body (c : JobContext) : Procedure σ α → Body σ α
  | .done (.ok x) => pure x
  | .done (.error stop) => Body.stop stop
  | .act a next => do (next (← Body.act a)).body c
  | .emit e next => do
    c.emit e
    next.body c

def emitted : Procedure σ α → Host σ → List OutboundEvent
  | .done _, _ => []
  | .act a next, h => (next (a h).1).emitted (a h).2
  | .emit e next, h => e :: next.emitted h

theorem run_queued (c : JobContext) (p : Procedure σ α) (out : Outbox) (h : Host σ) :
    (StateT.run (ExceptT.run (p.body c)) out h).1.2 = out ++ (p.emitted h).map c.attributed := by
  induction p generalizing out h with
  | done ended =>
    rw [emitted, List.map_nil, List.append_nil]
    cases ended <;> rfl
  | act a next ih =>
    rw [body, Body.run_act, Engine.bind_run, ih, emitted]
  | emit e next ih =>
    have hemit : StateT.run (ExceptT.run (c.emit e)) out h =
        ((.ok (), out ++ [c.attributed e]), h) := rfl
    rw [body, Body.run_ok hemit, ih, emitted, List.map_cons, List.append_assoc]
    rfl

theorem execute_queued (c : JobContext) (p : Procedure σ α) (h : Host σ) :
    ((p.body c).execute h).1.2 = (p.emitted h).map c.attributed := p.run_queued c [] h

def bind : Procedure σ α → (α → Procedure σ β) → Procedure σ β
  | .done (.ok x), f => f x
  | .done (.error stop), _ => .done (.error stop)
  | .act a next, f => .act a fun x => (next x).bind f
  | .emit e next, f => .emit e (next.bind f)

private theorem body_bind (c : JobContext) (p : Procedure σ α) (f : α → Procedure σ β) :
    (p.bind f).body c = p.body c >>= fun x => (f x).body c := by
  induction p with
  | done ended => cases ended <;> rfl
  | act a next ih =>
    rw [bind, body, body, bind_assoc]
    exact congrArg _ (funext ih)
  | emit e next ih => rw [bind, body, body, bind_assoc, ih]

end Procedure

/-! Which bodies are procedures. -/

def Body.Procedural {σ α : Type} (c : JobContext) (b : Body σ α) : Prop :=
  ∃ p : Procedure σ α, b = p.body c

namespace Body.Procedural

variable {σ α β ε : Type} {c : JobContext}

theorem pure (x : α) : Procedural (σ := σ) c (pure x) := ⟨.done (.ok x), rfl⟩

theorem fail (e : JobError) : Procedural (σ := σ) (α := α) c (Body.fail e) :=
  ⟨.done (.error (.failed e)), rfl⟩

theorem orFail (toError : ε → JobError) (x : Except ε α) :
    Procedural (σ := σ) c (Body.orFail toError x) := by
  cases x with
  | ok x => exact pure x
  | error e => exact fail (toError e)

theorem bind {b : Body σ α} {f : α → Body σ β} (hb : Procedural c b)
    (hf : ∀ x, Procedural c (f x)) : Procedural c (b >>= f) := by
  obtain ⟨p, rfl⟩ := hb
  refine ⟨p.bind fun x => (hf x).choose, ?_⟩
  rw [Procedure.body_bind]
  exact congrArg _ (funext fun x => (hf x).choose_spec)

theorem act (a : Act σ α) : Procedural c (Body.act a) :=
  ⟨.act a fun x => .done (.ok x), (bind_pure _).symm⟩

theorem emit (e : OutboundEvent) : Procedural (σ := σ) c (c.emit e) :=
  ⟨.emit e (.done (.ok ())), (bind_pure _).symm⟩

end Body.Procedural

open Body (Procedural)

theorem PoolRefresh.announce_procedural {σ : Type} (c : JobContext) (owner : TenantKey)
    (eventType : String) (ids : List String) :
    Procedural (σ := σ) c (announce c owner eventType ids) := by
  induction ids with
  | nil => exact .pure ()
  | cons id rest ih =>
    refine Procedural.bind (.act _) fun e => ?_
    exact Procedural.bind (.emit e) fun _ => ih

theorem PoolRefresh.job_procedural {σ : Type} (refresh : Refresher σ) (c : JobContext) :
    Procedural c ((job refresh).body c) := by
  change Procedural c (body refresh c)
  unfold body
  cases c.run.tenant with
  | none => exact .fail _
  | some owner =>
    refine Procedural.bind (.act _) fun _ => ?_
    refine Procedural.bind (.act _) fun answer => ?_
    refine Procedural.bind (.orFail _ answer) fun outcome => ?_
    refine Procedural.bind (announce_procedural c owner _ _) fun _ => ?_
    exact Procedural.bind (announce_procedural c owner _ _) fun _ => announce_procedural c owner _ _

theorem StatisticHistory.snapshot_procedural {σ : Type} (source : Source σ)
    (store : StatisticStore σ) (c : JobContext) (entry : EntryType) :
    Procedural c (snapshot source store c entry) := by
  have hrecord : ∀ count, Procedural c (do
      let statistic ← Body.act (Statistic.raw entry c.run.tenant count)
      Body.orFail StatisticError.toJobError (← Body.act (store.record statistic))
      c.emit (← Body.act
        (OutboundEvent.create "statistic.recorded" entry.name (payload statistic)))) := by
    intro count
    refine Procedural.bind (.act _) fun statistic => ?_
    refine Procedural.bind (.act _) fun recorded => ?_
    refine Procedural.bind (.orFail _ recorded) fun _ => ?_
    exact Procedural.bind (.act _) fun e => .emit e
  unfold snapshot
  refine Procedural.bind (.act _) fun answer => ?_
  refine Procedural.bind (.orFail _ answer) fun count => ?_
  dsimp only
  split
  · exact Procedural.bind (.fail _) fun _ => hrecord count
  · exact hrecord count

theorem StatisticHistory.job_procedural {σ : Type} (source : Source σ) (store : StatisticStore σ)
    (entries : List EntryType) (c : JobContext) :
    Procedural c ((job source store entries).body c) := by
  have hsnapshots : Procedural c (snapshots source store c entries) := by
    induction entries with
    | nil => exact .pure ()
    | cons entry rest ih =>
      exact Procedural.bind (snapshot_procedural source store c entry) fun _ => ih
  exact Procedural.bind (.act _) fun _ => hsnapshots

end JobEngine
