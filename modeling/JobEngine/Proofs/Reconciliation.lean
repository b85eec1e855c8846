import JobEngine.Proofs.Announcement
import JobEngine.Proofs.Subscribers
import JobEngine.UnitOfWork.Threads
import Mathlib.Data.List.Lattice
/-! A refresh reconciles an owner's pools with those that the owner should have, and says what it
has done. A second one finds nothing left to do. -/

namespace JobEngine

namespace Dict

variable {β γ : Type}

theorem keys_ascending (d : Dict β) : d.keys.Pairwise (· < ·) :=
  List.pairwise_map.mpr d.ascending

private theorem keys_eq {d : Dict β} {e : Dict γ} (h : ∀ k, k ∈ d.keys ↔ k ∈ e.keys) :
    d.keys = e.keys := by
  -- both lists ascend, so it is enough that they have the same members
  have hperm : d.keys.Perm e.keys := (List.perm_ext_iff_of_nodup d.nodup_keys e.nodup_keys).mpr h
  refine hperm.eq_of_pairwise (fun a b _ _ hab hba => ?_) d.keys_ascending e.keys_ascending
  exact absurd (String.lt_trans hab hba) (String.lt_irrefl a)

end Dict

namespace PoolStore

/-- What a refresh that nothing interrupts has to come to, from one store to the other. -/
structure Reconciled (s : PoolStore) (owner : TenantKey) (lazy : Bool) (outcome : RefreshOutcome)
    (s' : PoolStore) : Prop where
  ids : (s'.pools owner).keys = s.wanted owner
  created : ∀ id, id ∈ outcome.created ↔ id ∈ s.wanted owner ∧ id ∉ (s.pools owner).keys
  updated : ∀ id, id ∈ outcome.updated ↔
    lazy = false ∧ id ∈ s.wanted owner ∧ id ∈ (s.pools owner).keys
  deleted : ∀ id, id ∈ outcome.deleted ↔ id ∈ (s.pools owner).keys ∧ id ∉ s.wanted owner
  sorted : ∀ ids ∈ [outcome.created, outcome.updated, outcome.deleted], ids.Pairwise (· < ·)
  disjoint : [outcome.created, outcome.updated, outcome.deleted].Pairwise List.Disjoint
  new : ∀ id, id ∈ s.wanted owner → s.version owner id = none → s'.version owner id = some 0
  kept : ∀ id version, id ∈ s.wanted owner → s.version owner id = some version →
    s'.version owner id = some (if lazy then version else version + 1)
  generation : s'.generation owner = s.generation owner + 1
  others : ∀ other, other ≠ owner → s'.ownerPools other = s.ownerPools other
  assigned : s'.assigned = s.assigned

variable {s : PoolStore} {owner other : TenantKey} {lazy : Bool} {id : String}

private theorem ownerPools_refreshed : (s.refreshed owner lazy).ownerPools other =
    if owner = other then OwnerPools.apply (s.ownerPools owner) (s.outcomeOf owner lazy)
    else s.ownerPools other := by
  unfold refreshed
  rw [refresh_eq, ownerPools_put]
  rfl

@[simp] private theorem assigned_refreshed : (s.refreshed owner lazy).assigned = s.assigned := by
  unfold refreshed
  rw [refresh_eq]

theorem version_of_refreshed : (s.refreshed owner lazy).version owner id =
    if id ∈ s.wanted owner then
      match s.version owner id with
      | some version => some (if lazy then version else version + 1)
      | none => some 0
    else none := by
  unfold version
  rw [pools_refreshed, if_pos rfl]
  exact version_apply (s.ownerPools owner) _ lazy

@[simp] private theorem keys_refreshed :
    ((s.refreshed owner lazy).pools owner).keys = s.wanted owner := by
  refine Dict.keys_eq fun id => ?_
  rw [Dict.mem_keys]
  change ((s.refreshed owner lazy).version owner id).isSome ↔ id ∈ s.wanted owner
  rw [version_of_refreshed]
  split
  next hwanted => cases s.version owner id <;> simp [hwanted]
  next hwanted => simp [hwanted]

theorem refresh_reconciles (s : PoolStore) (owner : TenantKey) (lazy : Bool) :
    Reconciled s owner lazy (s.outcomeOf owner lazy) (s.refreshed owner lazy) where
  ids := keys_refreshed
  created id := by simp [outcomeOf, plan]
  updated id := by cases lazy <;> simp [outcomeOf, plan]
  deleted id := by simp [outcomeOf, plan]
  sorted := by
    have hcurrent := (s.pools owner).keys_ascending
    have hwanted : (s.wanted owner).Pairwise (· < ·) := Dict.keys_ascending _
    have hupdated : (s.outcomeOf owner lazy).updated.Pairwise (· < ·) := by
      cases lazy with
      | true => exact .nil
      | false => exact hwanted.filter _
    simp only [List.forall_mem_cons, List.not_mem_nil, false_implies, implies_true, and_true]
    exact ⟨hwanted.filter _, hupdated, hcurrent.filter _⟩
  disjoint := by
    cases lazy <;> simp +contextual [outcomeOf, plan, List.Disjoint]
  new id hwanted hversion := by rw [version_of_refreshed, if_pos hwanted, hversion]
  kept id version hwanted hversion := by rw [version_of_refreshed, if_pos hwanted, hversion]
  generation := by
    unfold generation
    rw [ownerPools_refreshed, if_pos rfl]
    rfl
  others other hother := by rw [ownerPools_refreshed, if_neg hother.symm]
  assigned := assigned_refreshed

@[simp] private theorem outcomeOf_refreshed :
    (s.refreshed owner lazy).outcomeOf owner true = {} := by
  have hwanted : (s.refreshed owner lazy).wanted owner = s.wanted owner := by
    unfold wanted
    simp
  unfold outcomeOf
  rw [keys_refreshed, hwanted]
  simp [plan]

private theorem refresh_again : (s.refreshed owner lazy).refresh owner true =
    (.ok {}, (s.refreshed owner lazy).advance owner) := by
  rw [refresh_eq]
  change (Except.ok ((s.refreshed owner lazy).outcomeOf owner true), _) = _
  have houtcome : plan ((s.refreshed owner lazy).pools owner).keys
      ((s.refreshed owner lazy).wanted owner) true = {} := outcomeOf_refreshed
  rw [outcomeOf_refreshed, houtcome]
  rfl

end PoolStore

namespace PoolRefresh

variable {σ : Type}

/-- The harness leaves the pools to the body, its bus takes every batch, and its unit of work can
always be closed. -/
structure Reports (harness : Harness σ) (pools : Part σ PoolStore)
    (published : σ → List OutboundEvent) : Prop extends harness.Conveys pools.get published where
  lawful : ∀ s a, pools.get (pools.put s a) = s
  silent : ∀ s a, published (pools.put s a) = published a
  closes : ∀ h, (harness.unitOfWork.finish h).1 = .ok ()

/-- What a run of an owner's refresh comes to, when the refresh has this outcome and leaves this. -/
structure Reported (harness : Harness σ) (pools : Part σ PoolStore)
    (published : σ → List OutboundEvent) (fire : FireContext) (h : Host σ) (owner : TenantKey)
    (outcome : RefreshOutcome) (s : PoolStore) : Prop where
  succeeded : (harness.run (job (inMemory pools)) fire h).1 = .ok ()
  refreshed : pools.get (harness.run (job (inMemory pools)) fire h).2.app = s
  told : ∃ sent,
    published (harness.run (job (inMemory pools)) fire h).2.app = published h.app ++ sent ∧
      sent.map OutboundEvent.news = news owner outcome

theorem run_reports {harness : Harness σ} {pools : Part σ PoolStore}
    {published : σ → List OutboundEvent} (reports : Reports harness pools published)
    {fire : FireContext} {owner : TenantKey} (howner : fire.data.owner? = some owner)
    (h : Host σ) :
    let s := pools.get h.app
    let lazy := lazyOf fire.data
    Reported harness pools published fire h owner (s.outcomeOf owner lazy)
      (s.refreshed owner lazy) := by
  intro s lazy
  obtain ⟨context, begun, passage⟩ :=
    reports.toConveys.run_passes (job (inMemory pools)) fire h
  obtain ⟨events, h', hended, hnews, happ⟩ :=
    body_run pools (passage.tenant.trans howner) begun
  have hbegun : pools.get begun.app = s := passage.before.1
  rw [hbegun, passage.data] at hnews happ
  obtain ⟨hafter, hsettled⟩ := passage.settles hended
  obtain ⟨hanswer, hspread⟩ := hsettled.succeeds reports.closes
  refine ⟨hanswer, ?_, events, ?_, hnews⟩
  · rw [hafter, happ, reports.lawful]
  · rw [hspread, happ, reports.silent, passage.before.2]

/-- A refresh that nothing interrupts makes the owner's pools what they should be and says how. A
lazy one after it only counts as one more. A run of it announces the pools that were created, then
those that got a new version, then those that were deleted. -/
theorem refresh_reconciled_and_reported (s : PoolStore) (owner : TenantKey) (lazy : Bool) :
    ∃ outcome s', s.refresh owner lazy = (.ok outcome, s') ∧
      s.Reconciled owner lazy outcome s' ∧
      s'.refresh owner true = (.ok {}, s'.advance owner) ∧
      ∀ {σ : Type} {harness : Harness σ} {pools : Part σ PoolStore}
        {published : σ → List OutboundEvent} {fire : FireContext} {h : Host σ},
        Reports harness pools published → pools.get h.app = s →
        fire.data.owner? = some owner → lazyOf fire.data = lazy →
        Reported harness pools published fire h owner outcome s' := by
  refine ⟨s.outcomeOf owner lazy, s.refreshed owner lazy, ?_, s.refresh_reconciles owner lazy,
    PoolStore.refresh_again, ?_⟩
  · have hanswer : (s.refresh owner lazy).1 = .ok (s.outcomeOf owner lazy) :=
      congrArg Prod.fst (PoolStore.refresh_eq s owner lazy)
    exact Prod.ext hanswer rfl
  · rintro σ harness pools published fire h reports rfl howner rfl
    exact run_reports reports howner h

/-! A plant that keeps pools, and units of work of its threads. -/

structure Plant where
  pools : PoolStore
  sent : List OutboundEvent := []
  units : ThreadUnits := {}

namespace Plant

def poolsPart : Part Plant PoolStore := ⟨(·.pools), fun t p => { p with pools := t }⟩

def unitsPart : Part Plant ThreadUnits := ⟨(·.units), fun t p => { p with units := t }⟩

def busPart : Part Plant (Broadcast OutboundEvent) :=
  ⟨fun p => { history := p.sent }, fun b p => { p with sent := b.history }⟩

def harness : Harness Plant where
  policy := .unlimited
  bus := Broadcast.service busPart
  unitOfWork := some (ThreadUnits.service unitsPart .main)

theorem reports : Reports harness poolsPart (·.sent) where
  enter := nofun
  leave := nofun
  begin := by
    rintro _ ⟨⟩ h
    exact ⟨rfl, rfl⟩
  finish := by
    rintro _ ⟨⟩ h
    exact ⟨rfl, rfl⟩
  abort := by
    rintro _ ⟨⟩ h
    exact ⟨rfl, rfl⟩
  accepts batch h :=
    ⟨⟨_, rfl⟩, rfl, (Broadcast.history_deliver { history := h.app.sent } batch).2⟩
  lawful _ _ := rfl
  silent _ _ := rfl
  closes := ThreadUnits.service_closes unitsPart .main

def acme : TenantKey := ⟨"acme"⟩

def owed : Host Plant where
  clock := .epoch
  app :=
    { pools := ((PoolStore.assign {} acme ["a", "b"]).refreshed acme true).assign acme ["b", "c"] }

def fire : FireContext where
  definition := { key := ⟨"k"⟩, kind := PoolRefresh.kind }
  data := .ofList [(TriggerData.ownerId, "acme"), (lazyOption, "false")]
  refireCount := 0
  scheduledFor := .epoch
  firedAt := .epoch

/-- The owner comes to have `b` in its next version and a new `c`, and all three changes are
announced. -/
theorem owed_pools_reported :
    ∃ outcome s', owed.app.pools.refresh acme false = (.ok outcome, s') ∧
      outcome = { created := ["c"], updated := ["b"], deleted := ["a"] } ∧
      (s'.pools acme).entries = [("b", 1), ("c", 0)] ∧
      Reported harness poolsPart (·.sent) fire owed acme outcome s' := by
  obtain ⟨outcome, s', hrefresh, -, -, hrun⟩ :=
    refresh_reconciled_and_reported owed.app.pools acme false
  have houtcome : .ok outcome = (owed.app.pools.refresh acme false).1 :=
    (congrArg Prod.fst hrefresh).symm
  have hleft : (s'.pools acme).entries = [("b", 1), ("c", 0)] := by
    have hdone : (owed.app.pools.refresh acme false).2 = s' := congrArg Prod.snd hrefresh
    rw [← hdone]
    decide
  exact ⟨outcome, s', hrefresh, Except.ok.inj houtcome, hleft,
    hrun reports rfl (by decide) (by decide)⟩

end Plant

end PoolRefresh

end JobEngine
