import JobEngine.Proofs.Announcement
import JobEngine.Proofs.Dispatch
import JobEngine.Proofs.Transcript
import Mathlib.Data.List.Flatten
/-! What has been announced of the pools, fire after fire. It is all that runs which succeeded have
done to them. What was done by a run whose unit of work could not be closed is never told, since the
next attempt finds nothing to do. -/

namespace JobEngine

variable {σ η ν α β : Type}

def FireTry.succeeded : FireTry → Bool
  | .fired report => report.succeeded
  | .idle | .crashed => false

def FireTry.Unclosed : FireTry → Prop
  | .fired report =>
    ∃ e cause, report.outcome = .dispatched (.error e) ∧ e.cause = commitError cause
  | .crashed => True
  | .idle => False

namespace PoolRefresh

/-- All that is fired are refreshes. Beside them, nobody changes a pool or sends anything. -/
structure Announcing (e : Engine σ η ν) (pools : Part σ PoolStore)
    (published : σ → List OutboundEvent) : Prop extends Relays e.harness pools published where
  refreshes : ∀ handler, e.job handler = job (inMemory pools)
  apart : ∀ s a, pools.get (e.scheduler.put s a) = pools.get a
  mute : ∀ s a, published (e.scheduler.put s a) = published a
  before : ∀ n fire, Aside pools published ((e.listener n).before fire)
  after : ∀ n fire result, Aside pools published ((e.listener n).after fire result)

section

variable {harness : Harness σ} {pools : Part σ PoolStore} {published : σ → List OutboundEvent}
variable {e : Engine σ η ν} {fire : FireContext} {h h' h'' h''' : Host σ}

theorem Ran.widen {result : Except DispatchError Unit} (first : Quiet pools published h h')
    (ran : Ran harness pools published fire h' h'' result)
    (last : Quiet pools published h'' h''') :
    Ran harness pools published fire h h''' result := by
  cases ran with
  | ownerless e quiet => exact .ownerless e ((first.trans quiet).trans last)
  | told owner lazy s sent before changed news spread =>
    refine .told owner lazy s sent (before.trans first.1) (last.1.trans changed) news ?_
    rw [last.2, spread, first.2]
  | lost owner lazy s cause before changed quiet =>
    exact .lost owner lazy s cause (before.trans first.1) (last.1.trans changed)
      (last.2.trans (quiet.trans first.2))

namespace Announcing

section

variable (announcing : Announcing e pools published)

include announcing

private theorem aside_run {step : Scheduler η ν → β × Scheduler η ν} :
    Aside pools published (e.scheduler.run step) := fun h =>
  ⟨congrArg PoolStore.pools (announcing.apart _ h.app), announcing.mute _ h.app⟩

private theorem aside_launch : Aside pools published e.launch :=
  (Aside.composes pools published).launch announcing.before fun _ => announcing.aside_run

private theorem aside_settle (taken : TakenFire ν) (outcome : FireOutcome) :
    Aside pools published (e.settle taken outcome) :=
  (Aside.composes pools published).settleFire fun _ => announcing.aside_run

/-- A try at firing comes to nothing, or to a run of a refresh, and says which. -/
theorem fireNext_ran (h : Host σ) :
    let r := e.fireNext h
    (Quiet pools published h r.2 ∧ r.1.succeeded = false) ∨
      ∃ fire result, Ran e.harness pools published fire h r.2 result ∧
        r.1.succeeded = result.isOk ∧
        (r.1 = .crashed ∨ ∃ report, r.1 = .fired report ∧ report.outcome = .dispatched result) := by
  have kind := Aside.composes pools published
  have hlaunch := announcing.aside_launch h
  have hgrounded : ∀ taken outcome, (e.launch h).1 = .grounded taken outcome →
      outcome = .vetoed ∨ outcome = .noHandler := fun _ _ => Engine.launch_grounded
  unfold Engine.fireNext
  rw [Engine.bind_run]
  generalize e.launch h = launched at hlaunch hgrounded ⊢
  obtain ⟨r, host⟩ := launched
  cases r with
  | idle => exact .inl ⟨hlaunch, rfl⟩
  | grounded taken outcome =>
    refine .inl ⟨hlaunch.trans (announcing.aside_settle taken outcome host), ?_⟩
    obtain hcrashed | hfired := Engine.settle_answer e taken outcome host
    · exact congrArg FireTry.succeeded hcrashed
    · refine (congrArg FireTry.succeeded hfired).trans ?_
      obtain rfl | rfl := hgrounded taken outcome rfl <;> rfl
  | airborne flight =>
    refine .inr ?_
    simp only
    rw [Engine.bind_run, announcing.refreshes]
    have hran := announcing.toRelays.run_ran flight.context host
    generalize e.harness.run (job (inMemory pools)) flight.context host = ran at hran ⊢
    obtain ⟨result, landed⟩ := ran
    have htold := kind.tellAll announcing.after flight.context result flight.taken.listeners landed
    unfold Engine.land
    rw [Engine.bind_run]
    generalize e.tellAll flight.context result flight.taken.listeners landed = told at htold ⊢
    have hsettled := announcing.aside_settle flight.taken (.dispatched result) told.2
    refine ⟨flight.context, result, hran.widen hlaunch (htold.trans hsettled), ?_⟩
    obtain hcrashed | hfired := Engine.settle_answer e flight.taken (.dispatched result) told.2
    · refine ⟨?_, .inl hcrashed⟩
      cases result with
      | ok _ =>
        cases (Engine.settle_of_no_delay e flight.taken rfl told.2).symm.trans hcrashed
      | error _ => exact congrArg FireTry.succeeded hcrashed
    · refine ⟨?_, .inr ⟨_, hfired, rfl⟩⟩
      cases result <;> exact congrArg FireTry.succeeded hfired

end

end Announcing

/-! Fire after fire. -/

structure Attempt where
  before : PoolStore
  after : PoolStore
  answer : FireTry

def Attempt.changes (a : Attempt) : TenantKey → String → List PoolChange :=
  a.before.changesTo a.after

/-- A try at firing. Before it, anything may happen that leaves the pools alone and sends nothing:
time passes, jobs are stored and fires queued, and owners should have other pools. -/
inductive Step (e : Engine σ η ν) (pools : Part σ PoolStore) (published : σ → List OutboundEvent) :
    Host σ → Attempt → Host σ → Prop where
  | fire {h h' : Host σ} (meanwhile : Quiet pools published h h') :
      Step e pools published h
        { before := pools.get h'.app, after := pools.get (e.fireNext h').2.app,
          answer := (e.fireNext h').1 } (e.fireNext h').2

@[simp] private theorem announced_append (owner : TenantKey) (id : String)
    (events sent : List OutboundEvent) :
    announced owner id (events ++ sent) = announced owner id events ++ announced owner id sent := by
  unfold announced
  rw [List.map_append, List.filterMap_append]

/-- What a run comes to for one pool. -/
theorem Ran.pool {result : Except DispatchError Unit}
    (ran : Ran harness pools published fire h h' result) {s s' : PoolStore}
    (hs : s.pools = (pools.get h.app).pools) (hs' : s'.pools = (pools.get h'.app).pools)
    (owner : TenantKey) (id : String) :
    (s.changesTo s' owner id).foldl PoolChange.apply (s.version owner id) = s'.version owner id ∧
      announced owner id (published h'.app) = announced owner id (published h.app) ++
        (if result.isOk then s.changesTo s' owner id else []) ∧
      (s.changesTo s' owner id ≠ [] →
        result.isOk ∨ ∃ e cause, result = .error e ∧ e.cause = commitError cause) := by
  cases ran with
  | ownerless e quiet =>
    have hsame : s'.pools = s.pools := (hs'.trans quiet.1).trans hs.symm
    rw [PoolStore.changesTo_of_same hsame, PoolStore.version_congr hsame, quiet.2]
    exact ⟨rfl, (List.append_nil _).symm, fun hchanges => absurd rfl hchanges⟩
  | told other lazy first sent before changed noticed spread =>
    have hfirst : s.pools = first.pools := hs.trans before.symm
    have hlast : s'.pools = (first.refreshed other lazy).pools := hs'.trans changed
    rw [PoolStore.changesTo_congr hfirst hlast, PoolStore.version_congr hfirst,
      PoolStore.version_congr hlast, first.version_refreshed, spread, announced_append,
      first.changes_refreshed]
    refine ⟨rfl, ?_, fun _ => .inl rfl⟩
    exact congrArg _ (announced_plan (first.ownerPools other) _ lazy noticed)
  | lost other lazy first cause before changed quiet =>
    have hfirst : s.pools = first.pools := hs.trans before.symm
    have hlast : s'.pools = (first.refreshed other lazy).pools := hs'.trans changed
    rw [PoolStore.changesTo_congr hfirst hlast, PoolStore.version_congr hfirst,
      PoolStore.version_congr hlast, first.version_refreshed, quiet]
    exact ⟨rfl, (List.append_nil _).symm, fun _ => .inr ⟨_, cause, rfl, rfl⟩⟩

/-- What a try at firing comes to for one pool. -/
theorem Step.pool {a : Attempt} (announcing : Announcing e pools published)
    (step : Step e pools published h a h') (owner : TenantKey) (id : String) :
    (a.changes owner id).foldl PoolChange.apply ((pools.get h.app).version owner id) =
        (pools.get h'.app).version owner id ∧
      announced owner id (published h'.app) = announced owner id (published h.app) ++
        (if a.answer.succeeded then a.changes owner id else []) ∧
      (a.answer.succeeded = false → a.changes owner id ≠ [] → a.answer.Unclosed) := by
  cases step with
  | @fire h₁ meanwhile =>
    rw [← PoolStore.version_congr meanwhile.1, ← meanwhile.2]
    obtain ⟨quiet, hsucceeded⟩ | ⟨fire, result, ran, hsucceeded, hanswer⟩ :=
      announcing.fireNext_ran h₁
    · unfold Attempt.changes
      rw [hsucceeded, PoolStore.changesTo_of_same quiet.1, PoolStore.version_congr quiet.1, quiet.2]
      exact ⟨rfl, (List.append_nil _).symm, fun _ hchanges => absurd rfl hchanges⟩
    · obtain ⟨hversion, htold, hchanges⟩ := ran.pool rfl rfl owner id
      rw [hsucceeded]
      refine ⟨hversion, htold, fun hfailed hchanged => ?_⟩
      obtain hok | ⟨e, cause, rfl, hcause⟩ := hchanges hchanged
      · rw [hok] at hfailed
        cases hfailed
      · obtain hcrashed | ⟨report, hfired, houtcome⟩ := hanswer
        · rw [hcrashed]
          trivial
        · rw [hfired]
          exact ⟨e, cause, houtcome, hcause⟩

/-- What was announced of an owner's pool, against what it went through. -/
structure Announced (pools : Part σ PoolStore) (published : σ → List OutboundEvent)
    (owner : TenantKey) (id : String) (h : Host σ) (log : List Attempt) (h' : Host σ) : Prop where
  undergone : (log.flatMap (·.changes owner id)).foldl PoolChange.apply
    ((pools.get h.app).version owner id) = (pools.get h'.app).version owner id
  told : announced owner id (published h'.app) = announced owner id (published h.app) ++
    (log.filter (·.answer.succeeded)).flatMap (·.changes owner id)
  /-- It was all announced unless some other run did something to the pool. -/
  whole_iff : announced owner id (published h'.app) =
      announced owner id (published h.app) ++ log.flatMap (·.changes owner id) ↔
    ∀ a ∈ log, a.answer.succeeded = false → a.changes owner id = []
  /-- Such a run could not close its unit of work. -/
  lost : ∀ a ∈ log, a.answer.succeeded = false → a.changes owner id ≠ [] → a.answer.Unclosed

theorem flatMap_filter_eq_iff {log : List α} {p : α → Bool} {f : α → List β} :
    (log.filter p).flatMap f = log.flatMap f ↔ ∀ a ∈ log, p a = false → f a = [] := by
  have hle : ∀ log : List α, ((log.filter p).flatMap f).length ≤ (log.flatMap f).length :=
    fun _ => (List.filter_sublist.flatMap f).length_le
  induction log with
  | nil => simp
  | cons a rest ih =>
    rw [List.forall_mem_cons]
    refine Iff.trans ?_ (and_congr_right' ih)
    cases hp : p a with
    | true => simp [hp]
    | false =>
      rw [List.filter_cons_of_neg (by simp [hp]), List.flatMap_cons]
      constructor
      · intro heq
        have hlength := congrArg List.length heq
        have hrest := hle rest
        rw [List.length_append] at hlength
        have hnil : f a = [] := List.length_eq_zero_iff.mp (by omega)
        rw [hnil, List.nil_append] at heq
        exact ⟨fun _ => hnil, heq⟩
      · rintro ⟨hnil, heq⟩
        rw [hnil rfl, List.nil_append, heq]

section

variable {log : List Attempt} (announcing : Announcing e pools published)
variable (run : Transcript (Step e pools published) h log h') (owner : TenantKey) (id : String)

include announcing run

private theorem run_undergone : (log.flatMap (·.changes owner id)).foldl PoolChange.apply
    ((pools.get h.app).version owner id) = (pools.get h'.app).version owner id := by
  induction run with
  | here => rfl
  | step first _ ih =>
    obtain ⟨hfirst, -, -⟩ := first.pool announcing owner id
    rw [List.flatMap_cons, List.foldl_append, hfirst]
    exact ih

private theorem run_told : announced owner id (published h'.app)
    = announced owner id (published h.app) ++
    (log.filter (·.answer.succeeded)).flatMap (·.changes owner id) := by
  induction run with
  | here => exact (List.append_nil _).symm
  | @step _ _ _ a _ first _ ih =>
    obtain ⟨-, hfirst, -⟩ := first.pool announcing owner id
    rw [ih, hfirst, List.append_assoc]
    cases hsucceeded : a.answer.succeeded <;> simp [hsucceeded]

private theorem run_lost :
    ∀ a ∈ log, a.answer.succeeded = false → a.changes owner id ≠ [] → a.answer.Unclosed := by
  induction run with
  | here => exact nofun
  | step first _ ih =>
    obtain ⟨-, -, hfirst⟩ := first.pool announcing owner id
    exact List.forall_mem_cons.mpr ⟨hfirst, ih⟩

end

/-- The events that have been published tell of all that runs which succeeded did to each pool. What
a run did whose unit of work could not be closed is never told. -/
theorem changes_announced {log : List Attempt} (announcing : Announcing e pools published)
    (run : Transcript (Step e pools published) h log h') (owner : TenantKey) (id : String) :
    Announced pools published owner id h log h' := by
  have htold := run_told announcing run owner id
  refine ⟨run_undergone announcing run owner id, htold, ?_, run_lost announcing run owner id⟩
  rw [htold, List.append_cancel_left_eq]
  exact flatMap_filter_eq_iff

end

/-! A workshop whose units of work may fail to close. -/

structure Workshop where
  scheduler : Scheduler Unit Empty
  pools : PoolStore
  sent : List OutboundEvent := []
  failures : Nat := 0

namespace Workshop

def schedulerPart : Part Workshop (Scheduler Unit Empty) :=
  ⟨(·.scheduler), fun t s => { s with scheduler := t }⟩

def poolsPart : Part Workshop PoolStore := ⟨(·.pools), fun t s => { s with pools := t }⟩

def bus : EventBus Workshop OutboundEvent where
  publish event := do
    Act.modifyApp fun s => { s with sent := s.sent ++ [event] }
    return .ok ()
  publishBatch events := do
    Act.modifyApp fun s => { s with sent := s.sent ++ events }
    return .ok events.length

def unitOfWork : UnitOfWork Workshop where
  begin := pure (.ok ())
  finish := do
    let s ← Act.app
    Act.modifyApp fun s => { s with failures := s.failures - 1 }
    return if s.failures = 0 then .ok () else .error (.backend "connection lost")
  abort := pure (.ok ())

def engine : Engine Workshop Unit Empty where
  scheduler := schedulerPart
  harness := { policy := { maxRetries := 1 }, bus := bus, unitOfWork := some unitOfWork }
  job _ := job (inMemory poolsPart)
  listener := nofun

theorem announcing : Announcing engine poolsPart (·.sent) where
  lawful _ _ := rfl
  silent _ _ := rfl
  enter := nofun
  leave := nofun
  begin := by
    rintro _ ⟨⟩ h
    exact ⟨rfl, rfl⟩
  finish := by
    rintro _ ⟨⟩ h
    exact ⟨rfl, rfl⟩
  abort := by
    rintro _ ⟨⟩ h
    exact ⟨rfl, rfl⟩
  accepts batch h := ⟨⟨_, rfl⟩, rfl, rfl⟩
  refreshes _ := rfl
  apart _ _ := rfl
  mute _ _ := rfl
  before := nofun
  after := nofun

def acme : TenantKey := ⟨"acme"⟩

def refresh : JobDefinition where
  key := ⟨"k"⟩
  kind := PoolRefresh.kind
  data := .ofList [(TriggerData.ownerId, acme.text)]

def due (failures : Nat) : Host Workshop where
  clock := .epoch
  app :=
    { scheduler := Scheduler.enqueue
        { registry := [(PoolRefresh.kind, ())]
          jobs := [(refresh.key, { definition := refresh, trigger := none })] }
        .epoch
        { key := refresh.key, refireCount := 0, triggerData := .empty, scheduledFor := .epoch
          origin := .manual }
      pools := PoolStore.assign {} acme ["a"]
      failures }

def next (h : Host Workshop) : Host Workshop := (engine.fireNext h).2

def attempt (h : Host Workshop) : Attempt where
  before := h.app.pools
  after := (next h).app.pools
  answer := (engine.fireNext h).1

theorem attempted (h : Host Workshop) :
    Step engine poolsPart (·.sent) h (attempt h) (next h) := .fire ⟨rfl, rfl⟩

/-- The pool is created, and this is announced. -/
theorem changes_announced_at_once :
    Announced poolsPart (·.sent) acme "a" (due 0) [attempt (due 0)] (next (due 0)) ∧
      announced acme "a" (next (due 0)).app.sent = [.created] :=
  ⟨changes_announced announcing (.step (attempted _) (.here _)) acme "a", by decide +kernel⟩

/-- The pool is created by a run whose unit of work cannot be closed. The next run succeeds, finds
nothing to do and has nothing to announce. -/
theorem change_untold :
    let log := [attempt (due 1), attempt (next (due 1))]
    let last := next (next (due 1))
    Transcript (Step engine poolsPart (·.sent)) (due 1) log last ∧
      log.map (·.answer.succeeded) = [false, true] ∧
      announced acme "a" (due 1).app.sent = [] ∧ announced acme "a" last.app.sent = [] ∧
      log.flatMap (·.changes acme "a") = [.created] :=
  ⟨.step (attempted _) (.step (attempted _) (.here _)), by decide +kernel⟩

end Workshop

end PoolRefresh

end JobEngine
