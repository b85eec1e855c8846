import JobEngine.Proofs.Guard
import JobEngine.Proofs.Restart
/-! The scheduler of a worker at work beside a row that is cancelled. All jobs stay watched, the
statistics stay under their own key, and the row stays in the ledger, through every step of the
scheduler, the status listener and a submission. -/

namespace JobEngine

open StatusLedger (Command)

theorem JobKey.generate_readable {word : String} {c : Char} (hc : c ∈ word.toList)
    (visible : Text.isBlankChar c = false) (id : Uuid) :
    JobKey.ofText (generate word id).text = .ok (generate word id) := by
  refine if_neg fun hblank => ?_
  have htrim : Text.trimChars (word ++ "-" ++ id.text).toList = [] := by
    simpa [Text.trim, generate] using hblank
  have hall := (Text.trimChars_eq_nil_iff _).mp htrim c (by simp [hc])
  rw [visible] at hall
  cases hall

namespace Worker

/-- All jobs of a worker are watched, and the statistics are kept under their own key only. -/
structure Watched (s : Scheduler WorkerJob Unit) : Prop where
  guarded : s.Guarded StatusListener.name ()
  registry : s.registry = ({} : Worker).scheduler.registry
  alone : ∀ key job, s.jobs.get? key = some job →
    job.definition.kind = StatisticHistory.kind → key = statisticsKey

theorem resolve_eq (kind : String) : ({} : Worker).scheduler.registry.resolve kind =
    if StatisticHistory.kind = kind then some .statistics
    else if PoolRefresh.kind = kind then some .refresh
    else none := by
  let registry := ({} : Worker).scheduler.registry
  have hget : registry.get? kind = if StatisticHistory.kind = kind then some .statistics
      else if PoolRefresh.kind = kind then some .refresh else none := rfl
  have hcategory : registry.byCategory kind = none := rfl
  have hall : registry.get? "*" = none := rfl
  change ((registry.get? kind).or (registry.byCategory kind)).or (registry.get? "*") = _
  rw [hcategory, hall, Option.or_none, Option.or_none, hget]

namespace Watched

variable {s s' : Scheduler WorkerJob Unit}

theorem of_jobs (h : Watched s) (guarded : s'.Guarded StatusListener.name ())
    (registry : s'.registry = s.registry)
    (jobs : ∀ key job, s'.jobs.get? key = some job → s.jobs.get? key = some job) : Watched s' :=
  ⟨guarded, registry.trans h.registry, fun key job hjob => h.alone key job (jobs key job hjob)⟩

theorem take (h : Watched s) (now : Instant) : Watched (s.take now).2 := by
  refine h.of_jobs (h.guarded.take now) ?_ ?_ <;> unfold Scheduler.take <;> split
  · rfl
  · split <;> rfl
  · exact fun _ _ hjob => hjob
  · split <;> exact fun _ _ hjob => hjob

theorem afterFire (h : Watched s) (fire : PendingFire) (trigger : Option Trigger)
    (outcome : FireOutcome) (now : Instant) :
    Watched ((s.afterFire fire trigger outcome now).getD s) := by
  have guarded := h.guarded.afterFire fire trigger outcome now
  obtain ⟨heq, -⟩ | ⟨-, ⟨due, -, heq⟩ | ⟨slot, -, heq⟩⟩ :=
    s.afterFire_cases fire trigger outcome now <;>
  · rw [heq] at guarded ⊢
    exact h.of_jobs guarded rfl fun _ _ hjob => hjob

theorem delete (h : Watched s) (key : JobKey) : Watched (s.deleteJob key).2 := by
  refine h.of_jobs (h.guarded.delete key) rfl fun k job hjob => ?_
  rw [Scheduler.jobs_deleteJob] at hjob
  split at hjob
  · cases hjob
  · exact hjob

theorem triggerNow (h : Watched s) {key : JobKey} {data : TriggerData} {now : Instant}
    (hs : s.triggerNow key data now = .ok s') : Watched s' := by
  have guarded := h.guarded.triggerNow hs
  obtain ⟨-, rfl⟩ := Scheduler.triggerNow_ok hs
  exact h.of_jobs guarded rfl fun _ _ hjob => hjob

theorem addMatcher (h : Watched s) {name : String} {key : JobKey}
    (hs : s.addMatcher name key = .ok s') : Watched s' := by
  have guarded := h.guarded.addMatcher hs
  obtain ⟨matchers, rfl⟩ := Scheduler.addMatcher_ok hs
  exact h.of_jobs guarded rfl fun _ _ hjob => hjob

theorem addJob (h : Watched s) {definition : JobDefinition} {replace : Bool}
    (hkind : definition.kind ≠ StatisticHistory.kind)
    (hmatched : s.listens StatusListener.name definition.key)
    (hs : s.addJob definition replace = .ok s') : Watched s' := by
  have guarded := h.guarded.addJob hmatched hs
  obtain ⟨-, rfl⟩ := Scheduler.addJob_ok hs
  refine ⟨guarded, h.registry, fun key job hjob hstatistics => ?_⟩
  rw [Scheduler.jobs_store] at hjob
  split at hjob
  · cases hjob
    exact absurd hstatistics hkind
  · exact h.alone key job hjob hstatistics

end Watched

structure Taken (taken : TakenFire Unit) : Prop where
  key : taken.job.definition.key = taken.fire.key
  alone : taken.job.definition.kind = StatisticHistory.kind → taken.fire.key = statisticsKey
  handled : (({} : Worker).scheduler.registry.resolve taken.job.definition.kind).isSome
  heard : taken.listeners ≠ []

theorem Watched.taken {s s' : Scheduler WorkerJob Unit} (h : Watched s) {now : Instant}
    {taken : TakenFire Unit} (htake : s.take now = (some taken, s')) : Taken taken := by
  obtain ⟨q, rest, job, hqueue, -, hjob, rfl, -⟩ := Scheduler.take_some htake
  have hstored := h.guarded.queued q (hqueue ▸ List.mem_cons_self)
  refine ⟨h.guarded.filed _ job hjob, h.alone _ job hjob, ?_, ?_⟩
  · have hhandler := h.guarded.handled _ job hjob
    unfold Scheduler.hasHandler at hhandler
    rwa [h.registry] at hhandler
  · exact List.ne_nil_of_mem
      (List.mem_filter.mpr ⟨h.guarded.listener, h.guarded.matched _ hstored⟩)

theorem watched_scheduled (start : Instant) : Watched (scheduled start) := by
  have fresh : ({} : Worker).scheduler.Guarded StatusListener.name () :=
    { listener := List.mem_singleton.mpr rfl
      matched := nofun
      filed := fun key job (hjob : none = some job) => nomatch hjob
      handled := fun key job (hjob : none = some job) => nomatch hjob
      queued := fun q hq => absurd hq List.not_mem_nil }
  have watched : watching.Guarded StatusListener.name () := fresh.addMatcher addMatcher_fresh
  refine ⟨watched.scheduleJob rfl (scheduleJob_watching start), rfl, fun key job hjob _ => ?_⟩
  by_contra hkey
  have hnone : (scheduled start).jobs.get? key = none := if_neg (Ne.symm hkey)
  rw [hnone] at hjob
  cases hjob

/-! What the parts of a worker do to its scheduler and to a row that is cancelled. -/

section

variable {b : Backend} {row : JobStatus} {P : Scheduler WorkerJob Unit → Prop} {α : Type}

theorem on_scheduler {step : Scheduler WorkerJob Unit → α × Scheduler WorkerJob Unit}
    {Q : α → Scheduler WorkerJob Unit → Prop} (hstep : ∀ s, P s → Q (step s).1 (step s).2) :
    Act.Triple (b.Bears row P) (schedulerPart.run step) fun r => b.Bears row (Q r) :=
  fun _ hbears => ⟨hstep _ hbears.1, hbears.2⟩

theorem on_attempt
    {step : Scheduler WorkerJob Unit → Except SchedulerError (Scheduler WorkerJob Unit)}
    {Q : Except SchedulerError Unit → Scheduler WorkerJob Unit → Prop}
    (hok : ∀ s s', P s → step s = .ok s' → Q (.ok ()) s')
    (herror : ∀ s e, P s → step s = .error e → Q (.error e) s) :
    Act.Triple (b.Bears row P) (Scheduler.attempt schedulerPart step)
      fun r => b.Bears row (Q r) := by
  refine on_scheduler fun s hP => ?_
  cases hs : step s with
  | ok s' => exact hok s s' hP hs
  | error e => exact herror s e hP hs

variable (cancelled : row.state = .cancelled)

include cancelled

theorem before_vetoes (thread : ThreadName) {fire : FireContext} (hkey : fire.key = row.id) :
    Act.Triple (b.Bears row P) (StatusListener.before (b.ledger thread) fire) fun verdict w =>
      verdict = .veto ∧ b.Bears row P w := by
  have hrefused : Act.Triple (b.Bears row P)
      ((b.ledger thread).transition fire.key (.running fire.refireCount)) fun r w =>
        r = .error (.invalidTransition row.id .cancelled .running) ∧ b.Bears row P w := by
    rintro h ⟨hP, rows, holds, hrow⟩
    rw [hkey]
    have answers := Backend.transition_refused holds hrow cancelled (.running fire.refireCount)
      thread
    exact ⟨answers.answer, answers.bears hP hrow⟩
  refine hrefused.bind fun r => .assuming ?_
  rintro rfl
  refine ((Act.keeps_composes _).log _ _ _ _).bind fun _ => ?_
  exact .pure fun w hbears => ⟨rfl, hbears⟩

theorem before_bears (thread : ThreadName) (fire : FireContext) :
    Act.Keeps (b.Bears row P) (StatusListener.before (b.ledger thread) fire) :=
  (Act.keeps_composes _).statusBefore (Backend.transition_bears cancelled thread fire.key _)

theorem after_bears (thread : ThreadName) (fire : FireContext)
    (result : Except DispatchError Unit) :
    Act.Keeps (b.Bears row P) (StatusListener.after (b.ledger thread) fire result) :=
  (Act.keeps_composes _).statusAfter (Backend.transition_bears cancelled thread fire.key _)

end

/-! Submitting a refresh. -/

def WatchedAt (key : JobKey) (s : Scheduler WorkerJob Unit) : Prop :=
  Watched s ∧ s.listens StatusListener.name key

def Matched (key : JobKey) : Except SchedulerError Unit → Scheduler WorkerJob Unit → Prop
  | .ok _ => WatchedAt key
  | .error _ => Watched

section

variable {b : Backend} {row : JobStatus} {P : Scheduler WorkerJob Unit → Prop}
variable {definition : JobDefinition} (cancelled : row.state = .cancelled)

omit cancelled in
theorem bears_watched {key : JobKey} {w : Worker} (h : b.Bears row (WatchedAt key) w) :
    b.Bears row Watched w := ⟨h.1.1, h.2⟩

include cancelled

theorem adopts_bears (thread : ThreadName) (key : JobKey) :
    Act.Keeps (b.Bears row P) (Registration.adoptExisting (b.ledger thread) key) := by
  rintro h ⟨hP, rows, holds, hrow⟩
  cases hfind : rows.find? (·.id = key) with
  | none => exact (Backend.adopts_none holds hfind thread).bears hP hrow
  | some old =>
    obtain ⟨changed, hstate, answers⟩ := Backend.adopts holds hfind thread
    refine answers.bears hP ?_
    have hid : old.id = key := by simpa using List.find?_some hfind
    by_cases hsame : row = old
    · have hmerged : { old with updatedAt := changed } = row := by
        rw [hsame, hstate (hsame ▸ cancelled)]
      rw [hmerged, JobStatus.replace_self holds.distinct hrow]
      exact hrow
    · exact JobStatus.mem_replace holds.distinct hrow (hid ▸ hfind) hsame

private theorem failStatus_bears (thread : ThreadName) (key : JobKey) (cause : SchedulerError) :
    Act.Keeps (b.Bears row P) (Registration.failStatus (b.ledger thread) key cause) :=
  (Act.keeps_composes _).failStatus (Backend.transition_bears cancelled thread key _)

omit cancelled in
theorem triggerNow_bears (key : JobKey) (data : TriggerData) :
    Act.Keeps (b.Bears row Watched) (service.triggerNow key data) :=
  (Act.keeps_composes (b.Bears row Watched)).now.bind fun _ =>
    on_attempt (Q := fun _ => Watched) (fun _ _ watched hs => watched.triggerNow hs)
      fun _ _ watched _ => watched

omit cancelled in
theorem deleteJob_bears (key : JobKey) :
    Act.Keeps (b.Bears row Watched) (service.deleteJob key) :=
  on_scheduler (Q := fun _ => Watched) fun _ watched => watched.delete key

/-- A job of another kind may be registered without a trigger. -/
theorem scheduleJob_bears (thread : ThreadName) (hkind : definition.kind ≠ StatisticHistory.kind)
    (hkey : ∃ text, JobKey.ofText text = .ok definition.key) :
    Act.Keeps (b.Bears row Watched)
      (Registration.scheduleJob (b.ledger thread) service definition none) := by
  have kind := Act.keeps_composes (b.Bears row Watched)
  have hmatch : Act.Triple (b.Bears row Watched)
      (service.addMatcher StatusListener.name definition.key) fun r =>
        b.Bears row (Matched definition.key r) :=
    on_attempt (fun _ _ watched hs => ⟨watched.addMatcher hs, (Scheduler.listens_addMatcher hs).1⟩)
      fun _ _ watched _ => watched
  refine hmatch.bind fun r => ?_
  rcases r with source | ⟨⟩
  · exact .pure fun w h => h
  have hregister : Act.Triple (b.Bears row (WatchedAt definition.key))
      (JobStatus.register definition false) _ := Backend.register_triple definition false
  refine hregister.bind fun status => .assuming ?_
  rintro ⟨created, rfl⟩
  have hwritable := JobStatus.initial_writable hkey false created
  have hcreate : Act.Keeps (b.Bears row (WatchedAt definition.key))
      ((b.ledger thread).create (JobStatus.initial definition false created)) :=
    Backend.create_bears thread hwritable
  refine hcreate.bind fun r => ?_
  rcases r with source | ⟨⟩
  · cases source with
    | alreadyExists key =>
      exact (adopts_bears cancelled thread _).mono (fun _ h => h) fun _ _ => bears_watched
    | notFound key => exact .pure fun _ => bears_watched
    | invalidTransition key source target => exact .pure fun _ => bears_watched
    | storage reason => exact .pure fun _ => bears_watched
  · have hattach : Act.Triple (b.Bears row (WatchedAt definition.key))
        (Registration.attach service definition none) fun _ => b.Bears row Watched :=
      on_attempt (P := WatchedAt definition.key) (Q := fun _ => Watched)
        (fun _ _ h hs => h.1.addJob hkind h.2 hs) fun _ _ h _ => h.1
    refine hattach.bind fun r => ?_
    rcases r with source | ⟨⟩
    · exact kind.bind (failStatus_bears cancelled thread _ source) fun _ => kind.pure _
    · exact kind.bind (kind.log _ _ _ _) fun _ => kind.pure _

theorem isSchedulable_bears (thread : ThreadName) (status : JobStatus) :
    Act.Keeps (b.Bears row P) (PoolRefresh.isSchedulable (b.ledger thread) status) := by
  have kind := Act.keeps_composes (b.Bears row P)
  unfold PoolRefresh.isSchedulable
  split
  · exact kind.pure _
  next owner _ =>
    let q : StatusQuery :=
      { owner := some owner, state := some .running, kind := some PoolRefresh.kind
        limit := some 1 }
    have hlist : Act.Keeps (b.Bears row P) ((b.ledger thread).list q) :=
      Backend.ask_bears cancelled thread (.list q) trivial
    apply kind.bind hlist
    intro r
    cases r with
    | ok running => exact kind.pure _
    | error e => exact kind.bind (kind.log _ _ _ _) fun _ => kind.pure _

omit cancelled in
private theorem refresh_triple {P : Worker → Prop} (owner : TenantKey) (lazy : Bool) :
    Act.Triple P (PoolRefresh.definition owner lazy) fun definition w =>
      (definition.kind ≠ StatisticHistory.kind ∧
        ∃ text, JobKey.ofText text = .ok definition.key) ∧ P w := by
  have hkind : PoolRefresh.kind ≠ StatisticHistory.kind := by decide
  have hword : 'p' ∈ PoolRefresh.kind.toList := by decide
  exact fun _ hP => ⟨⟨hkind, _, JobKey.generate_readable hword (by decide) _⟩, hP⟩

theorem submitRefresh_bears (owner : TenantKey) :
    Act.Keeps (b.Bears row Watched) (submitRefresh b.stores owner) := by
  have kind := Act.keeps_composes (b.Bears row Watched)
  refine (refresh_triple owner true).bind fun definition => .assuming fun ⟨hkind, hkey⟩ => ?_
  have hsubmit : Act.Keeps (b.Bears row Watched)
      (Registration.submitNow (b.ledger .main) service refreshJob definition) :=
    kind.submitNow (isSchedulable_bears cancelled .main)
      (scheduleJob_bears cancelled .main hkind hkey) (triggerNow_bears _ _)
      (failStatus_bears cancelled .main _)
  apply kind.bind hsubmit
  intro r
  split
  · exact kind.log _ _ _ _
  · exact kind.log _ _ _ _
  · exact kind.log _ _ _ _

end

end Worker

end JobEngine
