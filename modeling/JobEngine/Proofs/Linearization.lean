import JobEngine.Proofs.Contention
/-! What happens to a store that is shared can be told as one deed after the other. A refresh that
succeeds has the effect and the outcome of a whole one at the moment at which it read the wanted
set, and one that comes too late has none. -/

namespace JobEngine

namespace PoolStore

inductive Deed where
  | assign (owner : TenantKey) (ids : List String)
  | advance (owner : TenantKey)
  | refresh (call : RefreshCall) (outcome : RefreshOutcome)
  deriving DecidableEq

def Event.deed : Event → Option Deed
  | .assigned owner ids => some (.assign owner ids)
  | .advanced owner => some (.advance owner)
  | .ended call (.ok outcome) => some (.refresh call outcome)
  | .ended _ (.error _) => none
  | .counted _ => none
  | .read _ => none

/-- One deed after the other, where each refresh is a whole one and comes to its outcome. -/
inductive Serial : PoolStore → List Deed → PoolStore → Prop where
  | done (s : PoolStore) : Serial s [] s
  | assign {s t deeds} (owner : TenantKey) (ids : List String)
      (rest : Serial (s.assign owner ids) deeds t) : Serial s (.assign owner ids :: deeds) t
  | advance {s t deeds} (owner : TenantKey) (rest : Serial (s.advance owner) deeds t) :
      Serial s (.advance owner :: deeds) t
  | refresh {s t u deeds outcome} (call : RefreshCall)
      (whole : s.refresh call.owner call.lazy = (.ok outcome, t)) (rest : Serial t deeds u) :
      Serial s (.refresh call outcome :: deeds) u

/-- What happened as deeds: a refresh that succeeds stands where it read the wanted set, and one
that does not is left out. -/
def linearize : List Event → List Deed
  | [] => []
  | .assigned owner ids :: rest => .assign owner ids :: linearize rest
  | .advanced owner :: rest => .advance owner :: linearize rest
  | .read call :: rest =>
    match answerTo call rest with
    | some (.ok outcome) => .refresh call outcome :: linearize rest
    | _ => linearize rest
  | .counted _ :: rest => linearize rest
  | .ended _ _ :: rest => linearize rest

section

variable {s t u : Shared} {event : Event} {events : List Event} {call : RefreshCall}
variable {outcome : RefreshOutcome}

theorem linearize_won (h : answerTo call events = some (.ok outcome)) :
    linearize (.read call :: events) = .refresh call outcome :: linearize events := by
  rw [linearize, h]

private theorem linearize_lost (h : ∀ outcome, answerTo call events ≠ some (.ok outcome)) :
    linearize (.read call :: events) = linearize events := by
  rw [linearize]
  split
  next outcome hwins => exact absurd hwins (h outcome)
  · rfl

/-- How the pools of an owner stand in a store where each refresh that succeeds is done as soon as
it has read the wanted set: they are those of the shared store, or ahead of them by one refresh. -/
inductive Level (events : List Event) (s : Shared) (store : PoolStore) (owner : TenantKey) :
    Prop where
  | even
      (none : ∀ call generation planned, call.owner = owner →
        s.underway.get? call = some (.planned generation planned) →
        ∀ outcome, answerTo call events ≠ some (.ok outcome))
      (same : store.ownerPools owner = s.store.ownerPools owner)
  | ahead (call : RefreshCall) (generation : Nat) (planned outcome : RefreshOutcome)
      (howner : call.owner = owner)
      (underway : s.underway.get? call = some (.planned generation planned))
      (wins : answerTo call events = some (.ok outcome))
      (done : store.ownerPools owner = OwnerPools.apply (s.store.ownerPools owner) planned)

section

variable {store next : PoolStore} {owner other : TenantKey} {ids : List String}

/-- What does not concern the pools of an owner leaves them even or ahead. -/
theorem Level.frame (h : Level (event :: events) s store owner) (first : Step s event t)
    (hraises : event.raises owner = 0) (hsame : next.ownerPools owner = store.ownerPools owner)
    (hread : ∀ call, event = .read call → call.owner = owner →
      ∀ outcome, answerTo call events ≠ some (.ok outcome)) : Level events t next owner := by
  have hpools := first.ownerPools hraises
  cases h with
  | even none same =>
    refine .even (fun call generation planned howner ht outcome hwins => ?_)
      ((hsame.trans same).trans hpools.symm)
    have hgoes : ∀ {stage}, s.underway.get? call = some stage →
        (∀ answer, event ≠ .ended call answer) ∧ (event = .read call ∨
          t.underway.get? call = some stage) := by
      intro stage hs
      obtain ⟨_, _, -, -, hnone⟩ | ⟨_, -, hev, -⟩ | ⟨hother, -, hstill⟩ := first.underway hs
      · cases ht.symm.trans hnone
      · exact ⟨fun _ heq => Event.noConfusion (hev.symm.trans heq), .inl hev⟩
      · exact ⟨hother, .inr hstill⟩
    obtain hs | ⟨taken, _, hs, -⟩ | ⟨hstage, -⟩ := first.before ht
    · exact none call generation planned howner hs outcome
        ((answerTo_other (hgoes hs).1).trans hwins)
    · obtain hev | hstill := (hgoes hs).2
      · exact hread call hev howner outcome hwins
      · cases ht.symm.trans hstill
    · cases hstage
  | ahead call generation planned outcome howner underway wins done =>
    obtain ⟨_, _, heq, rfl, -⟩ | ⟨_, heq, -⟩ | ⟨hother, -, hstill⟩ := first.underway underway
    · cases heq
      rw [answerTo_ended] at wins
      rw [Option.some.inj wins, raises_ended howner] at hraises
      cases hraises
    · cases heq
    · rw [answerTo_other hother] at wins
      refine .ahead call generation planned outcome howner hstill wins ?_
      rw [hsame, done, hpools]

theorem Level.assign (h : Level (.assigned other ids :: events) s store owner) :
    Level events { s with store := s.store.assign other ids } (store.assign other ids) owner :=
  h.frame (.assign other ids) rfl rfl nofun

theorem Level.count {call : RefreshCall} (h : Level (.counted call :: events) s store owner)
    (first : Step s (.counted call) t) : Level events t store owner :=
  h.frame first rfl rfl nofun

/-- To raise a generation makes every refresh of the owner come too late that is under way. -/
theorem Level.advance {other : TenantKey} (h : Level (.advanced other :: events) s store owner)
    (hsound : Sound s) (rest : Run { s with store := s.store.advance other } events u) :
    Level events { s with store := s.store.advance other } (store.advance other) owner := by
  by_cases howner : other = owner
  · subst howner
    have hlate : ∀ call stage, call.owner = other → s.underway.get? call = some stage →
        ∀ outcome, answerTo call events ≠ some (.ok outcome) := by
      intro call stage howner hstage outcome hwins
      have hle := hsound.le call stage hstage
      have hraised : (s.store.advance other).generation call.owner =
          s.store.generation call.owner + 1 := by
        simp [howner]
      have hcurrent := rest.current hstage (hraised ▸ Nat.le_succ_of_le hle) hwins
      change stage.generation = (s.store.advance other).generation call.owner at hcurrent
      omega
    cases h with
    | even none same =>
      refine .even (fun call generation planned => hlate call _) ?_
      rw [ownerPools_advance, ownerPools_advance, if_pos rfl, if_pos rfl, same]
      unfold generation
      rw [same]
    | ahead call generation planned outcome howner underway wins done =>
      exact absurd wins (hlate call _ howner underway outcome)
  · refine h.frame (.advance other) (if_neg howner) ?_ nofun
    rw [ownerPools_advance, if_neg howner]

/-- A refresh that ends catches up with what it was ahead of. -/
theorem Level.commit {call : RefreshCall} {answer : Except AlreadyAdvanced RefreshOutcome}
    (h : Level (.ended call answer :: events) s store owner)
    (first : Step s (.ended call answer) t) (hsound : Sound s) (rest : Run t events u) :
    Level events t store owner := by
  by_cases hraises : (Event.ended call answer).raises owner = 0
  · exact h.frame first hraises rfl nofun
  have hwon : call.owner = owner ∧ answer.isOk := Classical.not_not.mp fun h => hraises (if_neg h)
  obtain ⟨howner, hok⟩ := hwon
  obtain ⟨outcome, rfl⟩ : ∃ outcome, answer = .ok outcome := by
    cases answer with
    | ok outcome => exact ⟨outcome, rfl⟩
    | error e => cases hok
  subst howner
  have hended : answerTo call (.ended call (.ok outcome) :: events) = some (.ok outcome) :=
    answerTo_ended _
  obtain ⟨generation, hplanned, hcurrent, hpools⟩ := first.won
  cases h with
  | even none same => exact absurd hended (none call generation outcome rfl hplanned outcome)
  | ahead call' generation' planned outcome' howner underway wins done =>
    have hsame : call' = call :=
      Run.rivals (.step first rest) hsound howner underway hplanned wins hended
    subst hsame
    cases hplanned.symm.trans underway
    refine .even (fun rival generation planned hrival ht outcome' hwins => ?_)
      (done.trans hpools.symm)
    -- any other refresh of this owner comes too late now
    have hne : call' ≠ rival := by
      rintro rfl
      obtain ⟨_, _, -, -, hgone⟩ | ⟨_, heq, -⟩ | ⟨hother, -⟩ := first.underway underway
      · cases ht.symm.trans hgone
      · cases heq
      · exact hother _ rfl
    obtain hs | ⟨_, _, hs, -⟩ | ⟨hcounted, -⟩ := first.before ht
    · exact rest.late first hrival.symm hne hs (hsound.le _ _ hs) hwins
    · exact rest.late first hrival.symm hne hs (hsound.le _ _ hs) hwins
    · cases hcounted

/-- A refresh that will succeed can be done as a whole as soon as it has read the wanted set. -/
theorem Level.read {call : RefreshCall}
    (hlevel : ∀ owner, Level (.read call :: events) s store owner)
    (first : Step s (.read call) t) (hsound : Sound s) (rest : Run t events u)
    (hassigned : store.assigned = s.store.assigned)
    (hwins : answerTo call events = some (.ok outcome)) :
    ∃ next, store.refresh call.owner call.lazy = (.ok outcome, next) ∧
      next.assigned = store.assigned ∧ ∀ owner, Level events t next owner := by
  obtain ⟨taken, hcounted, hstore, hplanned⟩ := first.planned
  have houtcome := rest.done hplanned hwins
  have hcurrent := rest.current hplanned ((first.sound hsound).le _ _ hplanned) hwins
  rw [hstore] at hcurrent
  have hids := hsound.fresh call taken hcounted hcurrent
  have heven : store.ownerPools call.owner = s.store.ownerPools call.owner := by
    cases hlevel call.owner with
    | even _ same => exact same
    | ahead rival _ _ _ howner underway wins _ =>
      have hreads : answerTo call (.read call :: events) = some (.ok outcome) := hwins
      have hsame := Run.rivals (.step first rest) hsound howner underway hcounted wins hreads
      cases hcounted.symm.trans (hsame ▸ underway)
  have hwanted : store.wanted call.owner = s.store.wanted call.owner := by
    unfold wanted
    rw [hassigned]
  have hplan : plan (store.pools call.owner).keys (store.wanted call.owner) call.lazy =
      outcome := by
    rw [houtcome, hids, hwanted, pools, heven, pools]
  have hrefresh := refresh_eq store call.owner call.lazy
  simp only [hplan] at hrefresh
  refine ⟨_, hrefresh, rfl, fun owner => ?_⟩
  by_cases howner : call.owner = owner
  · subst howner
    rw [← houtcome] at hplanned
    refine .ahead call taken.generation outcome outcome rfl hplanned hwins ?_
    rw [ownerPools_put, if_pos rfl, heven, hstore]
  · refine (hlevel owner).frame first rfl ?_ ?_
    · rw [ownerPools_put, if_neg howner]
    · rintro _ ⟨⟩ heq
      exact absurd heq howner

end

/-- Whatever happened can be told as one deed after the other. -/
theorem Run.serial (h : Run s events t) (hsound : Sound s) {store : PoolStore}
    (hassigned : store.assigned = s.store.assigned)
    (hlevel : ∀ owner, Level events s store owner) :
    ∃ last, Serial store (linearize events) last ∧ last.assigned = t.store.assigned ∧
      ∀ owner, last.ownerPools owner = t.store.ownerPools owner := by
  induction h generalizing store with
  | here s =>
    refine ⟨store, .done store, hassigned, fun owner => ?_⟩
    cases hlevel owner with
    | even _ same => exact same
    | ahead _ _ _ _ _ _ wins => cases wins
  | @step s t u event events first rest ih =>
    have hnext := first.sound hsound
    have hfirst := first
    cases first with
    | assign owner ids =>
      have hlevel' : ∀ owner', Level events _ (store.assign owner ids) owner' :=
        fun owner' => (hlevel owner').assign
      obtain ⟨last, hlast, h⟩ := ih hnext (congrArg (Assoc.put · owner _) hassigned) hlevel'
      exact ⟨last, .assign owner ids hlast, h⟩
    | advance owner =>
      have hlevel' : ∀ owner', Level events _ (store.advance owner) owner' :=
        fun owner' => (hlevel owner').advance hsound rest
      have hassigned' : (store.advance owner).assigned = s.store.assigned := hassigned
      obtain ⟨last, hlast, h⟩ := ih hnext hassigned' hlevel'
      exact ⟨last, .advance owner hlast, h⟩
    | count call hnone => exact ih hnext hassigned fun owner => (hlevel owner).count hfirst
    | read call =>
      by_cases hwins : ∃ outcome, answerTo call events = some (.ok outcome)
      · obtain ⟨outcome, hwins⟩ := hwins
        obtain ⟨next, hrefresh, hsame, hnextLevel⟩ :=
          Level.read hlevel hfirst hsound rest hassigned hwins
        obtain ⟨last, hlast, h⟩ := ih hnext (hsame.trans hassigned) hnextLevel
        refine ⟨last, ?_, h⟩
        rw [linearize_won hwins]
        exact .refresh call hrefresh hlast
      · rw [linearize_lost (not_exists.mp hwins)]
        refine ih hnext hassigned fun owner => (hlevel owner).frame hfirst rfl rfl ?_
        rintro _ ⟨⟩ _
        exact not_exists.mp hwins
    | commit call =>
      exact ih hnext (hassigned.trans (assigned_commit _ _).symm)
        fun owner => (hlevel owner).commit hfirst hsound rest

def ahead (s : Shared) (events : List Event) : Deed → Nat
  | .refresh call outcome =>
    match s.underway.get? call, answerTo call events with
    | some (.planned _ _), some (.ok done) => if done = outcome then 1 else 0
    | _, _ => 0
  | _ => 0

theorem ahead_frame (first : Step s event t) (deed : Deed)
    (h : ∀ call outcome, deed = .refresh call outcome →
      (∀ answer, event ≠ .ended call answer) ∧ event ≠ .read call) :
    ahead s (event :: events) deed = ahead t events deed := by
  cases deed with
  | assign => rfl
  | advance => rfl
  | refresh call outcome =>
    obtain ⟨hend, hread⟩ := h call outcome rfl
    rw [ahead, ahead, answerTo_other hend]
    cases hs : s.underway.get? call with
    | some stage =>
      obtain ⟨_, _, -, heq, -⟩ | ⟨_, -, heq, -⟩ | ⟨-, -, ht⟩ := first.underway hs
      · exact absurd heq (hend _)
      · exact absurd heq hread
      · rw [ht]
    | none =>
      cases ht : t.underway.get? call with
      | none => rfl
      | some stage =>
        obtain hbefore | ⟨_, _, hbefore, -⟩ | ⟨rfl, -⟩ := first.before ht
        · cases hs.symm.trans hbefore
        · cases hs.symm.trans hbefore
        · rfl

/-- A refresh that reads the wanted set is told if it will succeed. -/
theorem tells_read (first : Step s (.read call) t) (events : List Event) (deed : Deed) :
    (linearize (.read call :: events)).count deed + ahead s (.read call :: events) deed =
      (linearize events).count deed + ahead t events deed := by
  obtain ⟨taken, hcounted, -, hplanned⟩ := first.planned
  by_cases hdeed : ∃ outcome, deed = .refresh call outcome
  · obtain ⟨outcome, rfl⟩ := hdeed
    have hbefore : ahead s (.read call :: events) (.refresh call outcome) = 0 := by
      rw [ahead, hcounted]
    by_cases hwins : ∃ done, answerTo call events = some (.ok done)
    · obtain ⟨done, hwins⟩ := hwins
      rw [hbefore, linearize_won hwins, List.count_cons, ahead, hplanned, hwins]
      simp
    · rw [hbefore, linearize_lost (not_exists.mp hwins), ahead, hplanned]
      split
      next done _ hwon => exact absurd hwon (not_exists.mp hwins done)
      · rfl
  · have hframe : ahead s (.read call :: events) deed = ahead t events deed := by
      refine ahead_frame first deed ?_
      rintro other outcome rfl
      exact ⟨nofun, fun heq => hdeed ⟨outcome, Event.read.inj heq ▸ rfl⟩⟩
    rw [hframe, linearize]
    split
    next outcome _ =>
      rw [List.count_cons_of_ne fun heq => hdeed ⟨outcome, heq.symm⟩]
    · rfl

theorem tells_ended {answer : Except AlreadyAdvanced RefreshOutcome}
    (first : Step s (.ended call answer) t) (events : List Event) (deed : Deed) :
    ahead s (.ended call answer :: events) deed =
      (Event.ended call answer).deed.toList.count deed + ahead t events deed := by
  by_cases hdeed : ∃ outcome, deed = .refresh call outcome
  · obtain ⟨outcome, rfl⟩ := hdeed
    obtain ⟨generation, planned, hplanned, hgone⟩ := first.ended
    rw [ahead, ahead, hplanned, hgone, answerTo_ended]
    cases answer with
    | ok done => simp [Event.deed, List.count_singleton]
    | error e => rfl
  · have hframe : ahead s (.ended call answer :: events) deed = ahead t events deed := by
      refine ahead_frame first deed ?_
      rintro other outcome rfl
      exact ⟨fun _ heq => hdeed ⟨outcome, (Event.ended.inj heq).1 ▸ rfl⟩, nofun⟩
    rw [hframe]
    cases answer with
    | ok done =>
      have hne : deed ≠ .refresh call done := fun heq => hdeed ⟨done, heq⟩
      simp [Event.deed, hne.symm]
    | error e => simp [Event.deed]

theorem Step.tells (first : Step s event t) (events : List Event) (deed : Deed) :
    (linearize (event :: events)).count deed + ahead s (event :: events) deed =
      event.deed.toList.count deed + ((linearize events).count deed + ahead t events deed) := by
  have hframe : (∀ call, event ≠ .read call) → (∀ call answer, event ≠ .ended call answer) →
      ahead s (event :: events) deed = ahead t events deed := fun hread hend =>
    ahead_frame first deed fun call _ _ => ⟨hend call, hread call⟩
  cases event with
  | assigned owner ids =>
    rw [hframe nofun nofun, linearize, List.count_cons, Event.deed, Option.toList_some,
      List.count_singleton]
    omega
  | advanced owner =>
    rw [hframe nofun nofun, linearize, List.count_cons, Event.deed, Option.toList_some,
      List.count_singleton]
    omega
  | counted other =>
    rw [hframe nofun nofun, linearize, Event.deed, Option.toList_none, List.count_nil, Nat.zero_add]
  | read other =>
    rw [tells_read first, Event.deed, Option.toList_none, List.count_nil, Nat.zero_add]
  | ended other answer =>
    rw [tells_ended first, linearize]
    omega

theorem Run.tells (h : Run s events t) (deed : Deed) :
    (linearize events).count deed + ahead s events deed =
      (events.filterMap Event.deed).count deed := by
  induction h with
  | here s => cases deed <;> simp [linearize, ahead, answerTo]
  | @step s t u event events first rest ih =>
    rw [first.tells, ih, List.filterMap_cons]
    cases event.deed with
    | none => simp
    | some d => simp [List.count_cons, Nat.add_comm]

theorem linearize_append (before after : List Event) :
    ∃ earlier, linearize (before ++ after) = earlier ++ linearize after := by
  induction before with
  | nil => exact ⟨[], rfl⟩
  | cons event before ih =>
    obtain ⟨earlier, h⟩ := ih
    cases event with
    | assigned owner ids => exact ⟨.assign owner ids :: earlier, congrArg _ h⟩
    | advanced owner => exact ⟨.advance owner :: earlier, congrArg _ h⟩
    | counted => exact ⟨earlier, h⟩
    | ended => exact ⟨earlier, h⟩
    | read call =>
      rw [List.cons_append, linearize]
      split
      next outcome _ => exact ⟨.refresh call outcome :: earlier, congrArg _ h⟩
      · exact ⟨earlier, h⟩

/-- What happened to a store, told as one deed after the other. -/
structure Linearized (store : PoolStore) (events : List Event) (s : Shared) : Prop where
  serial : ∃ last, Serial store (linearize events) last ∧ last.assigned = s.store.assigned ∧
    ∀ owner, last.ownerPools owner = s.store.ownerPools owner
  once : (linearize events).Perm (events.filterMap Event.deed)
  placed : ∀ before call outcome after,
    events = before ++ .ended call (.ok outcome) :: after →
    ∃ first between earlier, before = first ++ .read call :: between ∧
      answerTo call (between ++ .ended call (.ok outcome) :: after) = some (.ok outcome) ∧
      linearize events = earlier ++
        .refresh call outcome :: linearize (between ++ .ended call (.ok outcome) :: after)
  lost : ∀ before call e after, events = before ++ .ended call (.error e) :: after →
    e.owner = call.owner ∧ ∃ t u, Run { store } before t ∧ Step t (.ended call (.error e)) u ∧
      Run u after s ∧ u.store = t.store
  generation : ∀ owner, s.store.generation owner =
    store.generation owner + events.countP (·.refreshed owner) + events.countP (·.advances owner)

/-- Refreshes may get in each other's way as they like: each that succeeds has the effect and the
outcome of a whole one at the moment at which it read the wanted set. -/
theorem refreshes_linearizable {store : PoolStore} (run : Run { store } events s) :
    Linearized store events s where
  serial := by
    have hsound : Sound { store } := ⟨nofun, nofun⟩
    exact run.serial hsound rfl fun _ => .even nofun rfl
  once := List.perm_iff_count.mpr fun deed => by
    have hcount := run.tells deed
    have hnone : ahead { store } events deed = 0 := by cases deed <;> rfl
    rwa [hnone, Nat.add_zero] at hcount
  placed before call outcome after heq := by
    subst heq
    obtain ⟨⟨_, _, hplanned⟩, -⟩ | ⟨first, between, rfl, hanswer⟩ := run.read_before
    · cases hplanned
    obtain ⟨earlier, hearlier⟩ :=
      linearize_append first (.read call :: (between ++ .ended call (.ok outcome) :: after))
    rw [linearize_won hanswer] at hearlier
    refine ⟨first, between, earlier, rfl, hanswer, ?_⟩
    rw [List.append_assoc, List.cons_append]
    exact hearlier
  lost before call e after heq := by
    subst heq
    obtain ⟨t, u, hbefore, first, hafter⟩ := run.at_event
    exact ⟨first.lost.1, t, u, hbefore, first, hafter, first.lost.2⟩
  generation := run.generation

/-- Two refreshes of one owner, where the wanted set changes between their reads. -/
theorem refreshes_linearizable_rivals :
    let first : RefreshCall := ⟨0, ⟨"acme"⟩, false⟩
    let second : RefreshCall := ⟨1, ⟨"acme"⟩, false⟩
    let events : List Event := [.assigned ⟨"acme"⟩ ["a"], .counted first, .counted second,
      .read first, .assigned ⟨"acme"⟩ ["b"], .read second,
      .ended first (.ok { created := ["a"] }), .ended second (.error ⟨⟨"acme"⟩⟩)]
    ∃ s, Run { store := {} } events s ∧ Linearized {} events s := by
  intro first second events
  have run : ∃ s, Run { store := {} } events s :=
    ⟨_, .step (.assign _ _) <| .step (.count first rfl) <| .step (.count second rfl) <|
      .step (.read first rfl) <| .step (.assign _ _) <| .step (.read second rfl) <|
      .step (@Step.commit _ 0 { created := ["a"] } first rfl) <|
      .step (@Step.commit _ 0 { created := ["b"] } second rfl) <| .here _⟩
  obtain ⟨s, run⟩ := run
  exact ⟨s, run, refreshes_linearizable run⟩

end

end PoolStore

end JobEngine
