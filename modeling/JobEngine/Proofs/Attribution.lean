import JobEngine.Proofs.RunEffects
import JobEngine.Proofs.Procedure
import JobEngine.Proofs.Succession
import JobEngine.Proofs.Transaction
/-! In whose name an attempt is made. The options of a job and those of the trigger that fired are
merged when a fire is launched, and the owner that they name is the tenant of the run, of what the
run logs, and of the events it sends. Main statement: this holds of every attempt, from the maps of
options to the events that leave, and all attempts of one logical fire are made in the same name as
long as the definition is the same. -/

namespace JobEngine

variable {σ η ν α β : Type}

/-- In the context of a run, all that depends on the options is as these maps have it. -/
structure Attributed (base upper : TriggerData) (c : JobContext) : Prop where
  seen : ∀ option, c.data.get? option = (upper.get? option).or (base.get? option)
  owned : ∀ raw, c.data.get? TriggerData.ownerId = some raw → ¬Text.isBlank raw →
    c.run.tenant = some ⟨Text.trim raw⟩
  ownerless : (∀ raw, c.data.get? TriggerData.ownerId = some raw → Text.isBlank raw) →
    c.run.tenant = none
  level : c.run.logLevel = (c.data.get? TriggerData.ownerLogLevel).bind Level.ofText?
  ambient : c.context.tenant = c.run.tenant ∧ c.context.logLevel = c.run.logLevel
  named : ∀ e : OutboundEvent, e.tenant.isSome → c.attributed e = e
  unnamed : ∀ e : OutboundEvent, e.tenant = none →
    c.attributed e = { e with tenant := c.run.tenant }

/-- Two runs are made in the same name, and see the same options. -/
structure Alike (c c' : JobContext) : Prop where
  data : c'.data = c.data
  tenant : c'.run.tenant = c.run.tenant
  logLevel : c'.run.logLevel = c.run.logLevel
  ambient : c'.context.tenant = c.context.tenant ∧ c'.context.logLevel = c.context.logLevel
  events : c'.attributed = c.attributed

/-- The calls of a run whose body emitted these events in this context. -/
structure Conveyed (c : JobContext) (emitted : List OutboundEvent)
    (answer : Except DispatchError Unit) (calls : List Call) : Prop where
  entered : ∀ context, Call.entered context ∈ calls → context = c.context
  ran : ∃ ended, calls.filterMap Call.ending? = [(ended, emitted.map c.attributed)]
  handed : ∀ batch, Call.handed batch ∈ calls → batch = emitted.map c.attributed
  delivered : calls.filterMap Call.delivery? <+: emitted.map c.attributed
  whole : answer = .ok () → calls.filterMap Call.delivery? = emitted.map c.attributed

/-! What a run takes from its options. -/

namespace TriggerData

private theorem owner?_of_blank {d : TriggerData}
    (h : ∀ raw, d.get? ownerId = some raw → Text.isBlank raw) : d.owner? = none := by
  unfold owner?
  cases hraw : d.get? ownerId with
  | none => rfl
  | some raw =>
    obtain ⟨-, e, he⟩ | ⟨hfull, -⟩ := TenantKey.ofText_cases raw
    · simp [he, Except.toOption]
    · exact absurd (h raw hraw) hfull

private theorem owner?_of_full {d : TriggerData} {raw : String} (hraw : d.get? ownerId = some raw)
    (hfull : ¬Text.isBlank raw) : d.owner? = some ⟨Text.trim raw⟩ := by
  unfold owner?
  obtain ⟨hblank, -⟩ | ⟨-, hread⟩ := TenantKey.ofText_cases raw
  · exact absurd hblank hfull
  · simp [hraw, hread, Except.toOption]

end TriggerData

def JobRun.contextOf (run : JobRun) (fire : FireContext) : JobContext :=
  { run, data := fire.data, context := .ofRun run }

section

variable {base upper : TriggerData} {fire fire' : FireContext} {h h' : Host σ}

theorem start_attributed (hdata : fire.data = base.merged upper) :
    Attributed base upper ((JobRun.start fire h).1.contextOf fire) where
  seen option := by
    change fire.data.get? option = _
    rw [hdata]
    exact Dict.get?_overlay base upper
  owned raw hraw hfull := (start_tenant fire h).trans (TriggerData.owner?_of_full hraw hfull)
  ownerless hblank := (start_tenant fire h).trans (TriggerData.owner?_of_blank hblank)
  level := start_logLevel fire h
  ambient := ⟨rfl, rfl⟩
  named e hnamed := by
    obtain ⟨tenant, htenant⟩ := Option.isSome_iff_exists.mp hnamed
    unfold JobContext.attributed
    rw [htenant, Option.some_or, ← htenant]
  unnamed e hunnamed := by
    unfold JobContext.attributed
    rw [hunnamed, Option.none_or]

private theorem start_alike (hdata : fire'.data = fire.data) :
    Alike ((JobRun.start fire h).1.contextOf fire) ((JobRun.start fire' h').1.contextOf fire') := by
  have htenant : (JobRun.start fire' h').1.tenant = (JobRun.start fire h).1.tenant := by
    rw [start_tenant fire' h', start_tenant fire h, hdata]
  have hlevel : (JobRun.start fire' h').1.logLevel = (JobRun.start fire h).1.logLevel := by
    rw [start_logLevel fire' h', start_logLevel fire h, hdata]
  refine ⟨hdata, htenant, hlevel, ⟨htenant, hlevel⟩, ?_⟩
  funext e
  exact congrArg (fun tenant => { e with tenant := e.tenant.or tenant }) htenant

end

/-! What becomes of the events. -/

section

variable {s : Surroundings σ} {job : Job σ} {fire : FireContext} {queued : Outbox}
variable {ended : Except Stop Unit} {result : Except DispatchError Unit} {calls : List Call}
variable {batch : List OutboundEvent}

theorem Publication.handed {t : Transport σ} {answer : Except PublishError Nat}
    (h : Publication t queued answer calls) (hbatch : Call.handed batch ∈ calls) :
    batch = queued := by
  cases h with
  | nothing hq => cases hbatch
  | all hq => simpa using hbatch
  | upTo front e back reason hq whole => simpa using hbatch

theorem Closing.not_handed {owns : Bool} {answer : Except UnitOfWorkError Unit}
    (h : Closing owns answer calls) (batch : List OutboundEvent) : Call.handed batch ∉ calls := by
  cases h <;> simp

theorem Settlement.handed {owns : Bool} {answer : Except DispatchError Unit × Bool}
    (h : Settlement s job fire queued ended owns answer calls)
    (hbatch : Call.handed batch ∈ calls) : batch = queued := by
  cases h with
  | closed hclosing hsending =>
    exact hsending.handed ((List.mem_append.mp hbatch).resolve_left (hclosing.not_handed batch))
  | unclosed hclosing => exact absurd hbatch (hclosing.not_handed batch)
  | stopped stop => cases hbatch

theorem Promise.delivered (h : Promise s job fire ended queued result calls) :
    calls.filterMap Call.delivery? <+: queued := by
  obtain hok | ⟨stop, hstop⟩ | ⟨e, he, hclosed⟩ | ⟨reason, hrefused⟩ := h.settled
  · simp [(h.sent hok).2.1]
  · rw [(h.stopped stop hstop).2.2.1]
    exact List.nil_prefix
  · rw [(h.unclosed e he hclosed).2.2]
    exact List.nil_prefix
  · obtain ⟨sent, -, hdelivered, -⟩ := h.refused reason hrefused
    rw [hdelivered]
    exact List.take_prefix sent queued

theorem Course.entered (c : Course s job fire result) {context : ExecutionContext}
    (h : Call.entered context ∈ c.calls) : context = c.context := by
  have hentering : Call.entered context ∈ c.entering := (c.mem_calls _).mp h
  rw [c.enters] at hentering
  split at hentering
  · simpa using hentering
  · cases hentering

theorem Course.conveyed (c : Course s job fire result) {context : JobContext}
    {emitted : List OutboundEvent} (hcontext : c.context = context.context)
    (hqueued : c.queued = emitted.map context.attributed) :
    Conveyed context emitted result c.calls where
  entered ambient h := (c.entered h).trans hcontext
  ran := by
    refine ⟨c.ended, ?_⟩
    rw [c.filterMap_calls _ sees_ending, ← hqueued]
    rfl
  handed batch h := (c.settles.handed ((c.mem_calls _).mp h)).trans hqueued
  delivered := hqueued ▸ c.promise.delivered
  whole hok := (c.promise.sent hok).2.1.trans hqueued

end

/-! Attempts. -/

namespace Engine

variable {e : Engine σ η ν}

theorem launchBy_data {now : Instant} {h : Host σ} {flight : Flight η ν}
    (launched : (e.launchBy now h).1 = .airborne flight) : flight.context.data =
      flight.taken.job.definition.data.merged flight.taken.fire.triggerData := by
  unfold launchBy at launched
  rw [run_bind] at launched
  cases htake : ((e.scheduler.get h.app).take now).1 with
  | none =>
    rw [htake] at launched
    cases launched
  | some taken =>
    rw [htake] at launched
    simp only at launched
    rw [bind_run, bind_run] at launched
    cases hpermit : (e.permit _ taken.listeners _).1 with
    | error outcome =>
      rw [hpermit] at launched
      cases launched
    | ok handler =>
      rw [hpermit] at launched
      cases launched
      rfl

/-- An attempt at a fire: an engine launched it at some time, and runs it from a host on. -/
structure Attempt (e : Engine σ η ν) where
  flight : Flight η ν
  host : Host σ
  launched : ∃ now h, (e.launchBy now h).1 = .airborne flight

namespace Attempt

variable (a : e.Attempt)

def job : Job σ := e.job a.flight.handler

def base : TriggerData := a.flight.taken.job.definition.data

def upper : TriggerData := a.flight.taken.fire.triggerData

def context : JobContext := (JobRun.start a.flight.context a.host).1.contextOf a.flight.context

def outset : Host σ :=
  (e.harness.unitOfWork.begin (e.harness.arrive a.job a.flight.context a.host).2).2

theorem data_eq : a.flight.context.data = a.base.merged a.upper := by
  obtain ⟨now, h, launched⟩ := a.launched
  exact launchBy_data launched

theorem attributed : Attributed a.base a.upper a.context := start_attributed a.data_eq

theorem course {s : Surroundings σ} (hs : e.harness = s.harness) :
    let watched := s.watch a.job a.flight.context a.host
    ∃ c : Course s a.job a.flight.context watched.1, watched.2 = c.calls ∧
      c.context = a.context.context ∧
      (c.ended, c.queued) = ((a.job.body a.context).execute a.outset).1 := by
  obtain ⟨c, hcalls, hcontext, hended, hqueued⟩ :=
    watch_course s a.job a.flight.context a.host
  rw [← hs] at hcontext hended hqueued
  refine ⟨c, hcalls, hcontext, ?_⟩
  rw [hended, hqueued]
  rfl

theorem ran {s : Surroundings σ} (hs : e.harness = s.harness) :
    (s.watch a.job a.flight.context a.host).2.filterMap Call.ending? =
      [((a.job.body a.context).execute a.outset).1] := by
  obtain ⟨c, hcalls, -, hran⟩ := a.course hs
  rw [hcalls, c.filterMap_calls _ sees_ending, ← hran]
  rfl

theorem conveyed {s : Surroundings σ} (hs : e.harness = s.harness) {p : Procedure σ Unit}
    (hp : a.job.body a.context = p.body a.context) :
    let watched := s.watch a.job a.flight.context a.host
    Conveyed a.context (p.emitted a.outset) watched.1 watched.2 := by
  obtain ⟨c, hcalls, hcontext, hran⟩ := a.course hs
  have hqueued : c.queued = (p.emitted a.outset).map a.context.attributed := by
    rw [← p.execute_queued, ← hp, ← hran]
  intro watched
  have hconveyed : Conveyed a.context (p.emitted a.outset) watched.1 c.calls :=
    c.conveyed hcontext hqueued
  rw [← hcalls] at hconveyed
  exact hconveyed

end Attempt

end Engine

theorem Traffic.Reachable.triggerData_eq {harness : Harness σ} {t : Traffic η ν}
    (h : Traffic.Reachable harness t) {x : Nat} {d d' : Departure ν} (hd : d ∈ t.line x)
    (hd' : d' ∈ t.line x) : d'.taken.fire.triggerData = d.taken.fire.triggerData := by
  obtain ⟨p, hline⟩ := h.succession x
  have hfirst : ∀ d ∈ t.line x, d.taken.fire.triggerData = p.triggerData := by
    intro d hd
    obtain ⟨i, hi⟩ := List.mem_iff_getElem?.mp hd
    rw [hline.counted i d hi]
  rw [hfirst d hd, hfirst d' hd']

namespace Engine

/-- Every attempt is made in the name that its options give it, up to the events that it sends, and
the attempts of one logical fire are made in the same name while the definition is the same. -/
theorem attempts_attributed (e : Engine σ η ν) (s : Surroundings σ) (hs : e.harness = s.harness) :
    (∀ a : e.Attempt, Attributed a.base a.upper a.context ∧
      let watched := s.watch a.job a.flight.context a.host
      (e.harness.run a.job a.flight.context a.host).1 = watched.1 ∧
      watched.2.filterMap Call.ending? = [((a.job.body a.context).execute a.outset).1] ∧
      ∀ p : Procedure σ Unit, a.job.body a.context = p.body a.context →
        Conveyed a.context (p.emitted a.outset) watched.1 watched.2) ∧
    ∀ t : Traffic η ν, Traffic.Reachable e.harness t → ∀ x, ∀ d ∈ t.line x, ∀ d' ∈ t.line x,
      d'.taken.job.definition = d.taken.job.definition → ∀ a a' : e.Attempt,
        a.flight.taken = d.taken → a'.flight.taken = d'.taken → Alike a.context a'.context := by
  constructor
  · intro a
    refine ⟨a.attributed, ?_, a.ran hs, fun p hp => a.conveyed hs hp⟩
    rw [hs]
    exact congrArg Prod.fst ((follows_run s a.job a.flight.context).same (Observed.fresh a.host))
  · intro t ht x d hd d' hd' hdefinition a a' ha ha'
    apply start_alike
    rw [a.data_eq, a'.data_eq]
    unfold Attempt.base Attempt.upper
    rw [ha, ha', hdefinition, ht.triggerData_eq hd hd']

def drawInvoice (c : JobContext) : Procedure (Scheduler Unit Empty) Unit :=
  .act (OutboundEvent.create "invoice.drawn" "march" .null) fun drawn => .emit drawn <|
    if c.attempt = 0 then .done (.error (.failed (.conflict "busy")))
    else .act (OutboundEvent.create "invoice.sent" "march" .null (some ⟨"globex"⟩)) fun sent =>
      .emit sent (.done (.ok ()))

def office : Surroundings (Scheduler Unit Empty) where
  policy := { maxRetries := 1, backoff := { strategy := .fixed, base := Duration.zero } }
  transport := .single fun _ => pure (.ok ())

def clerk : Engine (Scheduler Unit Empty) Unit Empty where
  scheduler := .whole
  harness := office.harness
  job _ := { name := "billing", body := fun c => (drawInvoice c).body c }
  listener := nofun

def billing : JobDefinition :=
  { key := ⟨"billing"⟩, kind := "billing"
    data := Dict.ofList [(TriggerData.ownerId, "umbrella"), (TriggerData.ownerLogLevel, "debug")] }

def monthly : Trigger :=
  { schedule := .once .epoch, data := Dict.ofList [(TriggerData.ownerId, " acme ")] }

def claimed (n : Nat) : TakenFire Empty where
  fire := { Scheduler.firstFire billing.key monthly with refireCount := n }
  job := { definition := billing, trigger := some monthly }
  listeners := []

def billingAttempt (n : Nat) : clerk.Attempt :=
  let waiting : Host (Scheduler Unit Empty) :=
    { clock := .epoch
      app :=
        { registry := [("billing", ())], jobs := [(billing.key, (claimed n).job)]
          queue := [{ due := .epoch, seq := 1, fire := (claimed n).fire }] } }
  { flight :=
      { taken := claimed n
        context :=
          { definition := billing, data := billing.data.merged monthly.data, refireCount := n
            scheduledFor := .epoch, firedAt := Instant.epoch.plus Act.tick }
        handler := () }
    host := waiting
    launched := ⟨.epoch, waiting, rfl⟩ }

def busy : DispatchError where
  key := billing.key
  attempt := 0
  aftermath := .refire Duration.zero
  cause := .conflict "busy"

private theorem billing_refires (registry : Registry Unit) :
    Ending clerk.harness registry (claimed 0) (.dispatched (.error busy)) := by
  let first := billingAttempt 0
  have hbusy : (clerk.harness.run first.job first.flight.context first.host).1 = .error busy := rfl
  rw [← hbusy]
  exact .ran first.job first.flight.context first.host rfl

private theorem billing_succeeds :
    (office.watch (billingAttempt 1).job (billingAttempt 1).flight.context
    (billingAttempt 1).host).1 = .ok () := by
  have hok : (office.watch (billingAttempt 1).job (billingAttempt 1).flight.context
      (billingAttempt 1).host).1.isOk := by decide +kernel
  revert hok
  cases (office.watch (billingAttempt 1).job (billingAttempt 1).flight.context
    (billingAttempt 1).host).1 with
  | ok _ => exact fun _ => rfl
  | error failure => exact nofun

/-- The second attempt is made, and sends its events, in the name of the trigger's owner. -/
theorem refire_in_same_name : ∃ t : Traffic Unit Empty,
    Traffic.Reachable clerk.harness t ∧ (t.line 1).map (·.taken) = [claimed 0, claimed 1] ∧
      Alike (billingAttempt 0).context (billingAttempt 1).context ∧
      (billingAttempt 1).context.run.tenant = some ⟨"acme"⟩ ∧
      ((office.watch (billingAttempt 1).job (billingAttempt 1).flight.context
          (billingAttempt 1).host).2.filterMap Call.delivery?).map (·.tenant) =
        [some ⟨"acme"⟩, some ⟨"globex"⟩] := by
  let second := billingAttempt 1
  let start : Traffic Unit Empty := { scheduler := { registry := [("billing", ())] } }
  have opened : Traffic.Reachable clerk.harness start := .start [("billing", ())] [] []
  have booked := opened.next (.scheduleJob billing monthly rfl)
  have taken := booked.next (.depart .epoch rfl rfl)
  have refired := taken.next
    (.land (.dispatched (.error busy)) .epoch List.mem_cons_self rfl (billing_refires _))
  have again := refired.next (.depart .epoch rfl rfl)
  obtain ⟨every, line⟩ := attempts_attributed clerk office rfl
  obtain ⟨attributed, -, -, conveys⟩ := every second
  have conveyed := conveys (drawInvoice second.context) rfl
  refine ⟨_, again, rfl, ?_, attributed.owned " acme " rfl (by decide), ?_⟩
  · exact line _ again 1 ⟨1, claimed 0, .epoch⟩ List.mem_cons_self ⟨2, claimed 1, .epoch⟩
      (List.mem_cons_of_mem _ List.mem_cons_self) rfl (billingAttempt 0) second rfl rfl
  · rw [conveyed.whole billing_succeeds]
    decide +kernel

end Engine

end JobEngine
