import JobEngine.Pools.Store
import JobEngine.Proofs.Queue
import JobEngine.Proofs.Transcript
/-! Refreshes that get in each other's way. A refresh takes three steps, and between them others may
refresh pools, assign them and raise the generation. What a refresh finds when it comes to its end
depends on the generation alone: of the refreshes of one owner that are under way at a time, at most
one can succeed. -/

namespace JobEngine

namespace PoolStore

structure RefreshCall where
  caller : Nat
  owner : TenantKey
  lazy : Bool
  deriving DecidableEq

/-- How far a refresh has come. -/
inductive Stage where
  | counted (taken : PoolSnapshot)
  | planned (generation : Nat) (outcome : RefreshOutcome)

def Stage.generation : Stage → Nat
  | .counted taken => taken.generation
  | .planned generation _ => generation

/-- A store, and the refreshes that are under way in it. -/
structure Shared where
  store : PoolStore
  underway : Assoc RefreshCall Stage := []

inductive Event where
  | assigned (owner : TenantKey) (ids : List String)
  | advanced (owner : TenantKey)
  | counted (call : RefreshCall)
  | read (call : RefreshCall)
  | ended (call : RefreshCall) (answer : Except AlreadyAdvanced RefreshOutcome)

/-- The steps of a refresh, and what others may do between them. -/
inductive Step : Shared → Event → Shared → Prop where
  | assign {s} (owner : TenantKey) (ids : List String) :
      Step s (.assigned owner ids) { s with store := s.store.assign owner ids }
  | advance {s} (owner : TenantKey) :
      Step s (.advanced owner) { s with store := s.store.advance owner }
  | count {s} (call : RefreshCall) (h : s.underway.get? call = none) :
      Step s (.counted call)
        { s with underway := s.underway.put call (.counted (s.store.snapshot call.owner)) }
  | read {s taken} (call : RefreshCall) (h : s.underway.get? call = some (.counted taken)) :
      Step s (.read call)
        { s with
          underway := s.underway.put call
            (.planned taken.generation (plan taken.ids (s.store.wanted call.owner) call.lazy)) }
  | commit {s generation outcome} (call : RefreshCall)
      (h : s.underway.get? call = some (.planned generation outcome)) :
      Step s (.ended call (s.store.commit call.owner generation outcome).1)
        { store := (s.store.commit call.owner generation outcome).2
          underway := s.underway.erase call }

abbrev Run := Transcript Step

def Event.refreshed (owner : TenantKey) : Event → Bool
  | .ended call answer => call.owner = owner && answer.isOk
  | _ => false

def Event.advances (owner : TenantKey) : Event → Bool
  | .advanced other => other = owner
  | _ => false

def answerTo (call : RefreshCall) : List Event → Option (Except AlreadyAdvanced RefreshOutcome)
  | [] => none
  | .ended other answer :: rest => if other = call then some answer else answerTo call rest
  | _ :: rest => answerTo call rest

/-! What the steps of a store do to the pools of each owner. -/

section

variable {s : PoolStore} {owner other : TenantKey}

theorem ownerPools_put (s : PoolStore) (owner other : TenantKey) (o : OwnerPools) :
    ownerPools { s with owners := s.owners.put owner o } other =
      if owner = other then o else s.ownerPools other := by
  unfold ownerPools
  rw [Assoc.get?_put]
  split <;> rfl

theorem ownerPools_advance : (s.advance owner).ownerPools other =
    if owner = other then { s.ownerPools owner with generation := s.generation owner + 1 }
    else s.ownerPools other := ownerPools_put s owner other _

@[simp] theorem generation_advance : (s.advance owner).generation other =
    s.generation other + if owner = other then 1 else 0 := by
  unfold generation
  rw [ownerPools_advance]
  split
  next h => rw [← h, generation]
  · rfl

theorem commit_current {generation : Nat} (h : s.generation owner = generation)
    (outcome : RefreshOutcome) : s.commit owner generation outcome =
      (.ok outcome,
        { s with owners := s.owners.put owner (OwnerPools.apply (s.ownerPools owner) outcome) }) :=
  if_pos h

theorem commit_late {generation : Nat} (h : s.generation owner ≠ generation)
    (outcome : RefreshOutcome) : s.commit owner generation outcome = (.error ⟨owner⟩, s) :=
  if_neg h

theorem current_of_commit {generation : Nat} {outcome done : RefreshOutcome}
    (h : (s.commit owner generation outcome).1 = .ok done) :
    s.generation owner = generation ∧ done = outcome := by
  by_cases hcurrent : s.generation owner = generation
  · rw [commit_current hcurrent] at h
    cases h
    exact ⟨hcurrent, rfl⟩
  · rw [commit_late hcurrent] at h
    cases h

@[simp] theorem assigned_commit (generation : Nat) (outcome : RefreshOutcome) :
    (s.commit owner generation outcome).2.assigned = s.assigned := by
  unfold commit
  simp only
  split <;> rfl

private theorem ownerPools_commit_of_ne (h : owner ≠ other) (generation : Nat)
    (outcome : RefreshOutcome) :
    (s.commit owner generation outcome).2.ownerPools other = s.ownerPools other := by
  by_cases hcurrent : s.generation owner = generation
  · rw [commit_current hcurrent, ownerPools_put, if_neg h]
  · rw [commit_late hcurrent]

theorem generation_commit (generation : Nat) (outcome : RefreshOutcome) :
    (s.commit owner generation outcome).2.generation other = s.generation other +
      if owner = other ∧ (s.commit owner generation outcome).1.isOk then 1 else 0 := by
  by_cases hcurrent : s.generation owner = generation
  · rw [commit_current hcurrent]
    unfold PoolStore.generation
    rw [ownerPools_put]
    by_cases hother : owner = other
    · rw [if_pos hother, if_pos ⟨hother, rfl⟩, hother]
      rfl
    · rw [if_neg hother, if_neg fun h => hother h.1]
      rfl
  · rw [commit_late hcurrent, if_neg fun h => Bool.noConfusion h.2]
    rfl

theorem refresh_eq (s : PoolStore) (owner : TenantKey) (lazy : Bool) :
    let outcome := plan (s.pools owner).keys (s.wanted owner) lazy
    s.refresh owner lazy =
      (.ok outcome,
        { s with owners := s.owners.put owner (OwnerPools.apply (s.ownerPools owner) outcome) }) :=
  commit_current rfl _

end

/-- What each refresh that is under way started from. -/
structure Sound (s : Shared) : Prop where
  le : ∀ call stage, s.underway.get? call = some stage →
    stage.generation ≤ s.store.generation call.owner
  fresh : ∀ call taken, s.underway.get? call = some (.counted taken) →
    taken.generation = s.store.generation call.owner →
    taken.ids = (s.store.pools call.owner).keys

section

variable {s t u : Shared} {event : Event} {events : List Event} {call : RefreshCall} {stage : Stage}
variable {outcome : RefreshOutcome}

def Event.raises (owner : TenantKey) : Event → Nat
  | .advanced other => if other = owner then 1 else 0
  | .ended call answer => if call.owner = owner ∧ answer.isOk then 1 else 0
  | _ => 0

theorem raises_ended {owner : TenantKey} (h : call.owner = owner) :
    (Event.ended call (.ok outcome)).raises owner = 1 := if_pos ⟨h, rfl⟩

theorem Step.generation (h : Step s event t) (owner : TenantKey) :
    t.store.generation owner = s.store.generation owner + event.raises owner := by
  cases h with
  | assign => rfl
  | advance other => exact generation_advance
  | count => rfl
  | read => rfl
  | commit call => exact generation_commit _ _

theorem Step.ownerPools (h : Step s event t) {owner : TenantKey} (hsame : event.raises owner = 0) :
    t.store.ownerPools owner = s.store.ownerPools owner := by
  cases h with
  | assign => rfl
  | advance other =>
    rw [ownerPools_advance]
    exact if_neg fun hother => by simp [Event.raises, hother] at hsame
  | count => rfl
  | read => rfl
  | @commit generation outcome call h =>
    by_cases howner : call.owner = owner
    · by_cases hcurrent : s.store.generation call.owner = generation
      · rw [commit_current hcurrent] at hsame
        simp [Event.raises, howner, Except.isOk, Except.toBool] at hsame
      · rw [commit_late hcurrent]
    · exact ownerPools_commit_of_ne howner _ _

/-- What becomes of a refresh that is under way: it ends, it reads the wanted set, or it stays. -/
theorem Step.underway (h : Step s event t) (hstage : s.underway.get? call = some stage) :
    (∃ generation outcome, stage = .planned generation outcome ∧
        event = .ended call (s.store.commit call.owner generation outcome).1 ∧
        t.underway.get? call = none) ∨
      (∃ taken, stage = .counted taken ∧ event = .read call ∧ t.underway.get? call =
        some (.planned taken.generation (plan taken.ids (s.store.wanted call.owner) call.lazy))) ∨
      (∀ answer, event ≠ .ended call answer) ∧ event ≠ .read call ∧
        t.underway.get? call = some stage := by
  cases h with
  | assign => exact .inr (.inr ⟨nofun, nofun, hstage⟩)
  | advance => exact .inr (.inr ⟨nofun, nofun, hstage⟩)
  | count other hnone =>
    have hne : other ≠ call := by
      rintro rfl
      rw [hstage] at hnone
      cases hnone
    exact .inr (.inr ⟨nofun, nofun, (Assoc.get?_put_of_ne _ _ hne).trans hstage⟩)
  | @read taken other hcounted =>
    by_cases hother : other = call
    · subst hother
      cases hstage.symm.trans hcounted
      exact .inr (.inl ⟨taken, rfl, rfl, Assoc.get?_put_self ..⟩)
    · refine .inr (.inr ⟨nofun, ?_, (Assoc.get?_put_of_ne _ _ hother).trans hstage⟩)
      rintro ⟨⟩
      exact hother rfl
  | @commit generation outcome other hplanned =>
    by_cases hother : other = call
    · subst hother
      cases hstage.symm.trans hplanned
      exact .inl ⟨generation, outcome, rfl, rfl, Assoc.get?_erase_self ..⟩
    · refine .inr (.inr ⟨?_, nofun, (Assoc.get?_erase_of_ne _ hother).trans hstage⟩)
      rintro _ ⟨⟩
      exact hother rfl

theorem answerTo_other (h : ∀ answer, event ≠ .ended call answer) :
    answerTo call (event :: events) = answerTo call events := by
  cases event with
  | ended other answer =>
    refine if_neg fun hother => ?_
    exact h answer (hother ▸ rfl)
  | _ => rfl

@[simp] theorem answerTo_ended (answer : Except AlreadyAdvanced RefreshOutcome) :
    answerTo call (.ended call answer :: events) = some answer := if_pos rfl

/-- A refresh that succeeds started from the generation that is current now. -/
theorem Run.current (h : Run s events t) (hstage : s.underway.get? call = some stage)
    (hle : stage.generation ≤ s.store.generation call.owner)
    (hwins : answerTo call events = some (.ok outcome)) :
    stage.generation = s.store.generation call.owner := by
  induction h generalizing stage with
  | here => cases hwins
  | @step s t u event events first rest ih =>
    have hraised := first.generation call.owner
    obtain ⟨generation, planned, rfl, rfl, -⟩ | ⟨taken, rfl, rfl, ht⟩ | ⟨hother, -, ht⟩ :=
      first.underway hstage
    · rw [answerTo_ended] at hwins
      exact (current_of_commit (Option.some.inj hwins)).1.symm
    · have hcurrent := ih ht (by simp only [Stage.generation] at hle ⊢; omega) hwins
      simp only [Stage.generation, Event.raises] at hcurrent hraised ⊢
      omega
    · rw [answerTo_other hother] at hwins
      have hcurrent := ih ht (by omega) hwins
      omega

/-- What is under way after a step was so before it, or has just counted the pools. -/
theorem Step.before (h : Step s event t) (hstage : t.underway.get? call = some stage) :
    s.underway.get? call = some stage ∨
      (∃ taken outcome, s.underway.get? call = some (.counted taken) ∧
        stage = .planned taken.generation outcome) ∨
      stage = .counted (s.store.snapshot call.owner) ∧ t.store = s.store := by
  cases h with
  | assign => exact .inl hstage
  | advance => exact .inl hstage
  | count other =>
    rw [Assoc.get?_put] at hstage
    split at hstage
    next hother =>
      cases hstage
      exact .inr (.inr ⟨hother ▸ rfl, rfl⟩)
    · exact .inl hstage
  | read other hcounted =>
    rw [Assoc.get?_put] at hstage
    split at hstage
    next hother =>
      cases hstage
      exact .inr (.inl ⟨_, _, hother ▸ hcounted, rfl⟩)
    · exact .inl hstage
  | commit other =>
    rw [Assoc.get?_erase] at hstage
    split at hstage
    · cases hstage
    · exact .inl hstage

theorem Step.sound (h : Step s event t) (hsound : Sound s) : Sound t where
  le call stage hstage := by
    rw [h.generation]
    refine Nat.le_add_right_of_le ?_
    obtain hbefore | ⟨taken, _, hbefore, rfl⟩ | ⟨rfl, -⟩ := h.before hstage
    · exact hsound.le call stage hbefore
    · exact hsound.le call (.counted taken) hbefore
    · exact Nat.le_refl _
  fresh call taken htaken hcurrent := by
    obtain hbefore | ⟨_, _, -, hplanned⟩ | ⟨hcounted, hstore⟩ := h.before htaken
    · have hle := hsound.le call _ hbefore
      have hraised := h.generation call.owner
      simp only [Stage.generation] at hle
      have hpools : t.store.ownerPools call.owner = s.store.ownerPools call.owner :=
        h.ownerPools (by omega)
      rw [pools, hpools]
      exact hsound.fresh call taken hbefore (by omega)
    · cases hplanned
    · cases hcounted
      rw [hstore]
      rfl

theorem Step.won (h : Step s (.ended call (.ok outcome)) t) :
    ∃ generation, s.underway.get? call = some (.planned generation outcome) ∧
      s.store.generation call.owner = generation ∧
      t.store.ownerPools call.owner = OwnerPools.apply (s.store.ownerPools call.owner) outcome := by
  generalize hevent : Event.ended call (.ok outcome) = event at h
  cases h with
  | @commit generation planned call hplanned =>
    injection hevent with hcall hanswer
    subst hcall
    obtain ⟨hcurrent, rfl⟩ := current_of_commit hanswer.symm
    refine ⟨generation, hplanned, hcurrent, ?_⟩
    rw [commit_current hcurrent, ownerPools_put, if_pos rfl]
  | _ => cases hevent

theorem Step.planned (h : Step s (.read call) t) :
    ∃ taken, s.underway.get? call = some (.counted taken) ∧ t.store = s.store ∧
      t.underway.get? call =
        some (.planned taken.generation
          (plan taken.ids (s.store.wanted call.owner) call.lazy)) := by
  cases h with
  | @read taken _ hcounted => exact ⟨taken, hcounted, rfl, Assoc.get?_put_self ..⟩

theorem Step.ended {answer : Except AlreadyAdvanced RefreshOutcome}
    (h : Step s (.ended call answer) t) :
    ∃ generation planned, s.underway.get? call = some (.planned generation planned) ∧
      t.underway.get? call = none := by
  cases h with
  | commit _ hplanned => exact ⟨_, _, hplanned, Assoc.get?_erase_self ..⟩

theorem Run.done (h : Run s events t) {generation : Nat} {planned : RefreshOutcome}
    (hplanned : s.underway.get? call = some (.planned generation planned))
    (hwins : answerTo call events = some (.ok outcome)) : outcome = planned := by
  induction h with
  | here => cases hwins
  | @step s t u event events first rest ih =>
    obtain ⟨_, _, heq, rfl, -⟩ | ⟨taken, heq, -⟩ | ⟨hother, -, ht⟩ := first.underway hplanned
    · cases heq
      rw [answerTo_ended] at hwins
      exact (current_of_commit (Option.some.inj hwins)).2
    · cases heq
    · rw [answerTo_other hother] at hwins
      exact ih ht hwins

theorem Step.remains (h : Step s event t) (hstage : s.underway.get? call = some stage)
    (hgoes : ∀ answer, event ≠ .ended call answer) :
    ∃ stage', t.underway.get? call = some stage' ∧ stage'.generation = stage.generation := by
  obtain ⟨_, _, -, hended, -⟩ | ⟨taken, rfl, -, ht⟩ | ⟨-, -, ht⟩ := h.underway hstage
  · exact absurd hended (hgoes _)
  · exact ⟨_, ht, rfl⟩
  · exact ⟨_, ht, rfl⟩

/-- When a refresh succeeds, any other of the same owner that is under way comes too late. -/
theorem Run.late (first : Step s (.ended call (.ok outcome)) t) (rest : Run t events u)
    {rival : RefreshCall} {outcome' : RefreshOutcome} (howner : call.owner = rival.owner)
    (hne : call ≠ rival) (hrival : s.underway.get? rival = some stage)
    (hle : stage.generation ≤ s.store.generation rival.owner) :
    answerTo rival events ≠ some (.ok outcome') := by
  intro hwins
  have hgoes : ∀ answer, Event.ended call (.ok outcome) ≠ .ended rival answer := fun _ heq =>
    hne (Event.ended.inj heq).1
  obtain ⟨stage', hstage', hsame⟩ := first.remains hrival hgoes
  have hraised := first.generation rival.owner
  rw [raises_ended howner] at hraised
  have hcurrent := rest.current hstage' (by omega) hwins
  omega

/-- Of the refreshes of one owner that are under way, at most one can succeed. -/
theorem Run.rivals (h : Run s events t) (hsound : Sound s) {rival : RefreshCall} {stage' : Stage}
    {outcome' : RefreshOutcome} (howner : call.owner = rival.owner)
    (hstage : s.underway.get? call = some stage) (hrival : s.underway.get? rival = some stage')
    (hwins : answerTo call events = some (.ok outcome))
    (hwins' : answerTo rival events = some (.ok outcome')) : call = rival := by
  refine Classical.byContradiction fun hne => ?_
  induction h generalizing stage stage' with
  | here => cases hwins
  | @step s t u event events first rest ih =>
    -- the first of the two to end is the one that succeeds
    by_cases hcall : ∃ answer, event = .ended call answer
    · obtain ⟨answer, rfl⟩ := hcall
      rw [answerTo_ended] at hwins
      cases hwins
      have hother : ∀ answer', Event.ended call (.ok outcome) ≠ .ended rival answer' :=
        fun _ heq => hne (Event.ended.inj heq).1
      rw [answerTo_other hother] at hwins'
      exact Run.late first rest howner hne hrival (hsound.le _ _ hrival) hwins'
    by_cases hended : ∃ answer, event = .ended rival answer
    · obtain ⟨answer, rfl⟩ := hended
      rw [answerTo_ended] at hwins'
      cases hwins'
      have hother : ∀ answer', Event.ended rival (.ok outcome') ≠ .ended call answer' :=
        fun _ heq => hne (Event.ended.inj heq).1.symm
      rw [answerTo_other hother] at hwins
      exact Run.late first rest howner.symm (Ne.symm hne) hstage (hsound.le _ _ hstage) hwins
    rw [answerTo_other (not_exists.mp hcall)] at hwins
    rw [answerTo_other (not_exists.mp hended)] at hwins'
    obtain ⟨_, hstage, -⟩ := first.remains hstage (not_exists.mp hcall)
    obtain ⟨_, hrival, -⟩ := first.remains hrival (not_exists.mp hended)
    exact ih (first.sound hsound) hstage hrival hwins hwins'

theorem Step.lost {e : AlreadyAdvanced} (h : Step s (.ended call (.error e)) t) :
    e.owner = call.owner ∧ t.store = s.store := by
  generalize hevent : Event.ended call (.error e) = event at h
  cases h with
  | @commit generation planned call hplanned =>
    injection hevent with hcall hanswer
    subst hcall
    by_cases hcurrent : s.store.generation call.owner = generation
    · rw [commit_current hcurrent] at hanswer
      cases hanswer
    · rw [commit_late hcurrent] at hanswer ⊢
      cases hanswer
      exact ⟨rfl, rfl⟩
  | _ => cases hevent

/-- A refresh that ends has read the wanted set before, with no other end in between. -/
theorem Run.read_before {before after : List Event} {answer : Except AlreadyAdvanced RefreshOutcome}
    (h : Run s (before ++ .ended call answer :: after) t) :
    (∃ generation planned, s.underway.get? call = some (.planned generation planned)) ∧
        answerTo call (before ++ .ended call answer :: after) = some answer ∨
      ∃ first between, before = first ++ .read call :: between ∧
        answerTo call (between ++ .ended call answer :: after) = some answer := by
  induction before generalizing s with
  | nil =>
    obtain _ | ⟨first, -⟩ := h
    obtain ⟨generation, planned, hplanned, -⟩ := first.ended
    exact .inl ⟨⟨generation, planned, hplanned⟩, answerTo_ended answer⟩
  | cons event before ih =>
    obtain _ | ⟨first, rest⟩ := h
    obtain ⟨⟨generation, planned, hnext⟩, hanswer⟩ | ⟨earlier, between, rfl, hanswer⟩ := ih rest
    · obtain hplanned | ⟨taken, _, hcounted, -⟩ | ⟨heq, -⟩ := first.before hnext
      · obtain ⟨_, _, -, -, hgone⟩ | ⟨_, heq, -⟩ | ⟨hother, -⟩ := first.underway hplanned
        · cases hnext.symm.trans hgone
        · cases heq
        · exact .inl ⟨⟨generation, planned, hplanned⟩, (answerTo_other hother).trans hanswer⟩
      · obtain ⟨_, _, heq, -⟩ | ⟨_, -, rfl, -⟩ | ⟨-, -, hstill⟩ := first.underway hcounted
        · cases heq
        · exact .inr ⟨[], before, rfl, hanswer⟩
        · cases hnext.symm.trans hstill
      · cases heq
    · exact .inr ⟨event :: earlier, between, rfl, hanswer⟩

theorem Run.generation (h : Run s events t) (owner : TenantKey) :
    t.store.generation owner =
      s.store.generation owner + events.countP (·.refreshed owner) +
        events.countP (·.advances owner) := by
  induction h with
  | here => rfl
  | @step s t u event events first rest ih =>
    have hraised := first.generation owner
    have hcount : event.raises owner =
        (if event.refreshed owner then 1 else 0) + if event.advances owner then 1 else 0 := by
      cases event <;> simp [Event.raises, Event.refreshed, Event.advances]
    rw [ih, List.countP_cons, List.countP_cons]
    omega

end

end PoolStore

end JobEngine
