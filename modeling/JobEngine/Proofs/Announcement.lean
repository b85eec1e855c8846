import JobEngine.Proofs.Changes
import JobEngine.Proofs.RunEffects
/-! One run of a refresh. It changes the pools while its body runs, and its events wait until the
unit of work is closed. So a run that succeeds announces each change that it made, and one whose
unit could not be closed has changed the pools and announces nothing. -/

namespace JobEngine

variable {σ α β : Type}

namespace PoolChange

def eventType : PoolChange → String
  | .created => "pool.created"
  | .modified => "pool.modified"
  | .deleted => "pool.deleted"

def news (change : PoolChange) (owner : TenantKey) (id : String) : News where
  eventType := change.eventType
  target := id
  tenant := some owner
  payload := .obj [("owner_id", .str owner.text), ("pool_id", .str id)]

end PoolChange

def News.change? (n : News) (owner : TenantKey) (id : String) : Option PoolChange :=
  if n.tenant = some owner ∧ n.target = id then
    [.created, .modified, .deleted].find? fun change => n.eventType = change.eventType
  else none

namespace PoolRefresh

def news (owner : TenantKey) (outcome : RefreshOutcome) : List News :=
  outcome.created.map (PoolChange.created.news owner) ++
    outcome.updated.map (PoolChange.modified.news owner) ++
    outcome.deleted.map (PoolChange.deleted.news owner)

def announced (owner : TenantKey) (id : String) (events : List OutboundEvent) : List PoolChange :=
  (events.map OutboundEvent.news).filterMap (·.change? owner id)

section

variable {owner other : TenantKey} {id : String}

private theorem change?_news (change : PoolChange) (target : String) :
    (change.news owner target).change? other id =
      if owner = other ∧ target = id then some change else none := by
  unfold News.change? PoolChange.news
  by_cases howner : owner = other
  · by_cases htarget : target = id
    · subst howner htarget
      cases change <;> simp [PoolChange.eventType]
    · simp [htarget]
  · simp [howner]

theorem filterMap_news (change : PoolChange) {ids : List String} (distinct : ids.Nodup) :
    (ids.map (change.news owner)).filterMap (·.change? other id) =
      if owner = other ∧ id ∈ ids then [change] else [] := by
  induction ids with
  | nil => simp
  | cons first rest ih =>
    obtain ⟨hfirst, hrest⟩ := List.nodup_cons.mp distinct
    rw [List.map_cons, List.filterMap_cons, change?_news, ih hrest]
    by_cases howner : owner = other
    · by_cases hid : first = id
      · subst hid
        simp [howner, hfirst]
      · simp [howner, hid, Ne.symm hid]
    · simp [howner]

theorem announced_plan (o : OwnerPools) (wanted : Dict Unit) (lazy : Bool)
    {events : List OutboundEvent}
    (h : events.map OutboundEvent.news =
      news owner (PoolStore.plan o.pools.keys wanted.keys lazy)) :
    announced other id events =
      if owner = other then (PoolStore.plan o.pools.keys wanted.keys lazy).changes id else [] := by
  have hcreated : (PoolStore.plan o.pools.keys wanted.keys lazy).created.Nodup :=
    wanted.nodup_keys.filter _
  have hupdated : (PoolStore.plan o.pools.keys wanted.keys lazy).updated.Nodup :=
    PoolStore.nodup_updated _ wanted lazy
  have hdeleted : (PoolStore.plan o.pools.keys wanted.keys lazy).deleted.Nodup :=
    o.pools.nodup_keys.filter _
  unfold announced
  rw [h, news, List.filterMap_append, List.filterMap_append, filterMap_news _ hcreated,
    filterMap_news _ hupdated, filterMap_news _ hdeleted, RefreshOutcome.changes]
  by_cases howner : owner = other <;> simp [howner]

end

/-! The body of a refresh. -/

def lazyOf (data : TriggerData) : Bool := data.get? lazyOption ≠ some "false"

section

variable (pools : Part σ PoolStore) {ctx : JobContext} {owner : TenantKey}

theorem announce_run (howner : ctx.run.tenant = some owner) (change : PoolChange)
    (ids : List String) (out : Outbox) (h : Host σ) : ∃ sent h',
      StateT.run (ExceptT.run (announce ctx owner change.eventType ids)) out h =
        ((.ok (), out ++ sent), h') ∧
      sent.map OutboundEvent.news = ids.map (change.news owner) ∧ h'.app = h.app := by
  induction ids generalizing out h with
  | nil => exact ⟨[], h, by rw [List.append_nil]; rfl, rfl, rfl⟩
  | cons id rest ih =>
    let payload : Json := .obj [("owner_id", .str owner.text), ("pool_id", .str id)]
    let created := OutboundEvent.create (σ := σ) change.eventType id payload none h
    let first := ctx.attributed created.1
    have hfirst : first.news = change.news owner id := by
      have htenant : first.tenant = some owner := howner
      unfold OutboundEvent.news
      rw [htenant]
      rfl
    obtain ⟨sent, h', hrest, hsent, happ⟩ := ih (out ++ [first]) created.2
    refine ⟨first :: sent, h', ?_, ?_, happ⟩
    · have hstep :
          StateT.run (ExceptT.run (announce ctx owner change.eventType (id :: rest))) out h =
            StateT.run (ExceptT.run (announce ctx owner change.eventType rest)) (out ++ [first])
              created.2 := rfl
      rw [hstep, hrest, List.append_assoc]
      rfl
    · rw [List.map_cons, List.map_cons, hfirst, hsent]

/-- The body always succeeds, with the pools changed already and the news waiting. -/
theorem body_run (howner : ctx.run.tenant = some owner) (h : Host σ) : ∃ events h',
    (body (inMemory pools) ctx).execute h = ((.ok (), events), h') ∧
      events.map OutboundEvent.news =
        news owner ((pools.get h.app).outcomeOf owner (lazyOf ctx.data)) ∧
      h'.app = pools.put ((pools.get h.app).refreshed owner (lazyOf ctx.data)) h.app := by
  let lazy := lazyOf ctx.data
  let store := pools.get h.app
  let outcome := store.outcomeOf owner lazy
  let logged := (Act.log .tasks .info "refreshing pools"
    [("owner", .shown owner.text), ("lazy_regen", .bool lazy)] h).2
  let changed : Host σ := { logged with app := pools.put (store.refreshed owner lazy) h.app }
  let tail (outcome : RefreshOutcome) : Body σ Unit := do
    announce ctx owner "pool.created" outcome.created
    announce ctx owner "pool.modified" outcome.updated
    announce ctx owner "pool.deleted" outcome.deleted
  have hrefresh : inMemory pools owner lazy logged = (.ok outcome, changed) := by
    have hpart : pools.run (·.refresh owner lazy) logged = (.ok outcome, changed) := by
      have hstore : (store.refresh owner lazy).1 = .ok outcome :=
        congrArg Prod.fst (PoolStore.refresh_eq store owner lazy)
      exact Prod.ext hstore rfl
    unfold inMemory
    rw [Engine.bind_run, hpart]
    rfl
  have hbody : (body (inMemory pools) ctx).execute h =
      StateT.run (ExceptT.run (tail outcome)) [] changed := by
    unfold body
    rw [howner]
    change (inMemory pools owner lazy >>= fun r => StateT.run (ExceptT.run
      (Body.orFail RefreshError.toJobError r >>= tail)) []) logged = _
    rw [Engine.bind_run, hrefresh]
    rfl
  obtain ⟨created, h₁, hcreated, hnoticed₁, happ₁⟩ :=
    announce_run howner .created outcome.created [] changed
  obtain ⟨updated, h₂, hupdated, hnoticed₂, happ₂⟩ :=
    announce_run howner .modified outcome.updated ([] ++ created) h₁
  obtain ⟨deleted, h₃, hdeleted, hnoticed₃, happ₃⟩ :=
    announce_run howner .deleted outcome.deleted ([] ++ created ++ updated) h₂
  refine ⟨[] ++ created ++ updated ++ deleted, h₃, ?_, ?_, ?_⟩
  · exact hbody.trans ((Body.run_ok hcreated).trans ((Body.run_ok hupdated).trans hdeleted))
  · rw [List.map_append, List.map_append, List.map_append, hnoticed₁, hnoticed₂, hnoticed₃]
    rfl
  · rw [happ₃, happ₂, happ₁]

theorem body_ownerless (howner : ctx.run.tenant = none) (h : Host σ) : ∃ e,
    (body (inMemory pools) ctx).execute h = ((.error (.failed e), []), h) := by
  unfold body
  rw [howner]
  exact ⟨_, rfl⟩

end

/-! A run of a refresh. -/

/-- No pool has changed and nothing was sent. The pools that an owner should have may be others. -/
def Quiet (pools : Part σ PoolStore) (published : σ → List OutboundEvent) (h h' : Host σ) : Prop :=
  (pools.get h'.app).pools = (pools.get h.app).pools ∧ published h'.app = published h.app

def Aside (pools : Part σ PoolStore) (published : σ → List OutboundEvent) (a : Act σ α) : Prop :=
  ∀ h, Quiet pools published h (a h).2

theorem Quiet.trans {pools : Part σ PoolStore} {published : σ → List OutboundEvent}
    {h h' h'' : Host σ} (first : Quiet pools published h h')
    (second : Quiet pools published h' h'') :
    Quiet pools published h h'' := ⟨second.1.trans first.1, second.2.trans first.2⟩

theorem Aside.composes (pools : Part σ PoolStore) (published : σ → List OutboundEvent) :
    Composes (Aside pools published) := Act.Beside.composes (fun a => (pools.get a).pools) published

/-- The bus takes every batch, and all that is around a body leaves the pools alone. -/
structure Relays (harness : Harness σ) (pools : Part σ PoolStore)
    (published : σ → List OutboundEvent) : Prop where
  lawful : ∀ s a, pools.get (pools.put s a) = s
  silent : ∀ s a, published (pools.put s a) = published a
  enter : ∀ scope ∈ harness.requestScope, ∀ context, Aside pools published (scope.enter context)
  leave : ∀ scope ∈ harness.requestScope, Aside pools published scope.leave
  begin : ∀ u ∈ harness.unitOfWork, Aside pools published u.begin
  finish : ∀ u ∈ harness.unitOfWork, Aside pools published u.finish
  abort : ∀ u ∈ harness.unitOfWork, Aside pools published u.abort
  accepts : ∀ batch h, (∃ sent, (harness.bus.publishBatch batch h).1 = .ok sent) ∧
    (pools.get (harness.bus.publishBatch batch h).2.app).pools = (pools.get h.app).pools ∧
    published (harness.bus.publishBatch batch h).2.app = published h.app ++ batch

/-- What a run does to the pools and what it sends, by its answer. -/
inductive Ran (harness : Harness σ) (pools : Part σ PoolStore)
    (published : σ → List OutboundEvent) (fire : FireContext) (h h' : Host σ) :
    Except DispatchError Unit → Prop where
  | ownerless (e : DispatchError) (quiet : Quiet pools published h h') :
      Ran harness pools published fire h h' (.error e)
  | told (owner : TenantKey) (lazy : Bool) (s : PoolStore) (sent : List OutboundEvent)
      (before : s.pools = (pools.get h.app).pools)
      (changed : (pools.get h'.app).pools = (s.refreshed owner lazy).pools)
      (news : sent.map OutboundEvent.news = news owner (s.outcomeOf owner lazy))
      (spread : published h'.app = published h.app ++ sent) :
      Ran harness pools published fire h h' (.ok ())
  | lost (owner : TenantKey) (lazy : Bool) (s : PoolStore) (cause : UnitOfWorkError)
      (before : s.pools = (pools.get h.app).pools)
      (changed : (pools.get h'.app).pools = (s.refreshed owner lazy).pools)
      (quiet : published h'.app = published h.app) :
      Ran harness pools published fire h h'
        (.error (failed harness.policy (job (inMemory pools)) fire (commitError cause)))

namespace Relays

variable {harness : Harness σ} {pools : Part σ PoolStore} {published : σ → List OutboundEvent}

theorem conveys (relays : Relays harness pools published) :
    harness.Conveys (fun a => (pools.get a).pools) published where
  enter := relays.enter
  leave := relays.leave
  begin := relays.begin
  finish := relays.finish
  abort := relays.abort
  accepts := relays.accepts

/-- A run of a refresh changes the pools and tells of it, or changes them and is lost; or it fails
before. -/
theorem run_ran (relays : Relays harness pools published) (fire : FireContext) (h : Host σ) :
    let r := harness.run (job (inMemory pools)) fire h
    Ran harness pools published fire h r.2 r.1 := by
  intro r
  obtain ⟨context, begun, passage⟩ := relays.conveys.run_passes (job (inMemory pools)) fire h
  have hbefore : (pools.get begun.app).pools = (pools.get h.app).pools := passage.before.1
  cases htenant : context.run.tenant with
  | none =>
    obtain ⟨e, hended⟩ := body_ownerless pools htenant begun
    obtain ⟨hafter, hsettled⟩ := passage.settles hended
    obtain ⟨hanswer, hsilent⟩ := hsettled.fails
    have hr : r.1 = _ := hanswer
    rw [hr]
    exact .ownerless _ ⟨hafter.trans hbefore, hsilent.trans passage.before.2⟩
  | some owner =>
    obtain ⟨events, h', hended, hnews, happ⟩ := body_run pools htenant begun
    obtain ⟨hafter, hsettled⟩ := passage.settles hended
    have hchanged : (pools.get r.2.app).pools =
        ((pools.get begun.app).refreshed owner (lazyOf context.data)).pools := by
      refine hafter.trans ?_
      rw [happ, relays.lawful]
    have hsilent : published h'.app = published h.app := by
      rw [happ, relays.silent]
      exact passage.before.2
    change Settled _ _ _ published h' events r.2 _ r.1 at hsettled
    generalize r.1 = answer at hsettled ⊢
    cases hsettled with
    | sent spread =>
      refine .told owner _ _ events hbefore hchanged hnews ?_
      rw [spread, hsilent]
    | unclosed cause k refused silent =>
      exact .lost owner _ _ cause hbefore hchanged (silent.trans hsilent)

end Relays

end PoolRefresh

end JobEngine
