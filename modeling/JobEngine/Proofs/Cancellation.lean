import JobEngine.Proofs.Guard
import JobEngine.Proofs.Rows
import JobEngine.Proofs.SchedulerTriples
/-! Once a job is cancelled it does not run any more. Its row stays cancelled whatever is done, and
the status listener watches every job that was registered. So each fire is vetoed, be it a slot of
its trigger, a fire asked for by hand or a refire that was queued before. -/

namespace JobEngine

open MemoryLedger (Cancelled)

variable {σ η ν α β : Type}

/-- The acts of those who store jobs by registering them. They may do anything else that leaves the
scheduler and the ledger alone, fire and delete jobs, and call the ledger. -/
inductive Site.Uses (site : Site σ η ν) : {α : Type} → Act σ α → Prop where
  | apart {α : Type} {a : Act σ α} (h : site.Apart a) : site.Uses a
  | bind {α β : Type} {a : Act σ α} {f : α → Act σ β} (ha : site.Uses a)
      (hf : ∀ x, site.Uses (f x)) : site.Uses (a >>= f)
  | scheduleJob (definition : JobDefinition) (trigger : Option Trigger) :
      site.Uses (Registration.scheduleJob site.book site.service definition trigger)
  | triggerNow (key : JobKey) (data : TriggerData) : site.Uses (site.service.triggerNow key data)
  | deleteJob (key : JobKey) : site.Uses (site.service.deleteJob key)
  | create (row : JobStatus) : site.Uses (site.book.create row)
  | merge (row : JobStatus) : site.Uses (site.book.merge row)
  | transition (key : JobKey) (u : StatusUpdate) : site.Uses (site.book.transition key u)

namespace Site.Uses

variable {site : Site σ η ν} {a : Act σ α}

theorem still (h : ∀ h, (a h).2.app = h.app) : site.Uses a := .apart (site.apart_still h)

theorem composes (site : Site σ η ν) : Composes site.Uses := ⟨still, bind⟩

theorem pure (x : α) : site.Uses (Pure.pure x : Act σ α) := still fun _ => rfl

theorem log (c : Component) (l : Level) (message : String) (fields : Log.Fields) :
    site.Uses (Act.log c l message fields : Act σ Unit) := still fun _ => rfl

theorem failStatus (key : JobKey) (cause : SchedulerError) :
    site.Uses (Registration.failStatus site.book key cause) :=
  (composes site).failStatus (transition key _)

theorem submitNow (job : Job σ) (definition : JobDefinition)
    (hcheck : ∀ row, site.Uses (job.isSchedulable site.book row)) :
    site.Uses (Registration.submitNow site.book site.service job definition) :=
  (composes site).submitNow hcheck (scheduleJob definition none) (triggerNow _ _) fun cause =>
    failStatus _ cause

theorem cancel (key : JobKey) : site.Uses (site.book.cancel key) := transition key .cancelled

theorem guards (ha : site.Uses a) {status : ν} :
    site.Keeps (fun s _ => s.Guarded StatusListener.name status) a := by
  induction ha with
  | apart h => exact h.keeps
  | bind _ _ ha hf => exact ha.after hf
  | scheduleJob definition trigger =>
    refine Triple.scheduleJob (M := fun s _ => s.Guarded StatusListener.name status ∧
      s.listens StatusListener.name definition.key) ?_ trigger
    exact
      { weaken := fun s l h => h.1
        matched := fun s s' l h hs => ⟨h.addMatcher hs, (Scheduler.listens_addMatcher hs).1⟩
        created := fun s l l' row h _ _ _ => h
        merged := fun s l row now h _ => h
        scheduled := fun s s' l definition trigger h hkey hs => h.1.scheduleJob (hkey ▸ h.2) hs
        added := fun s s' l definition h hkey hs => h.1.addJob (hkey ▸ h.2) hs
        refused := fun s l cause now r h _ => h }
  | triggerNow key data => exact Triple.triggerNow fun s s' l now h hs => h.triggerNow hs
  | deleteJob key => exact Triple.deleteJob fun s l h => h.delete key
  | create row => exact Triple.create (fun s l l' h _ => h) fun s l h => h
  | merge row => exact Triple.merge fun s l now h => h
  | transition key u => exact Triple.transition fun s l now r h _ => h

theorem keeps_cancelled (ha : site.Uses a) {key : JobKey} :
    site.Keeps (fun _ l => Cancelled l key) a := by
  induction ha with
  | apart h => exact h.keeps
  | bind _ _ ha hf => exact ha.after hf
  | scheduleJob definition trigger =>
    refine Triple.scheduleJob (M := fun _ l => Cancelled l key) ?_ trigger
    exact
      { weaken := fun s l h => h
        matched := fun s s' l h hs => h
        created := fun s l l' row h _ _ hl => h.create hl
        merged := fun s l row now h _ => h.merge
        scheduled := fun s s' l definition trigger h hkey hs => h
        added := fun s s' l definition h hkey hs => h
        refused := fun s l cause now r h hl => h.transition hl }
  | triggerNow key data => exact Triple.triggerNow fun s s' l now h hs => h
  | deleteJob key => exact Triple.deleteJob fun s l h => h
  | create row => exact Triple.create (fun s l l' h hl => h.create hl) fun s l h => h
  | merge row => exact Triple.merge fun s l now h => h.merge
  | transition key u => exact Triple.transition fun s l now r h hl => h.transition hl

theorem before (fire : FireContext) : site.Uses (StatusListener.before site.book fire) :=
  (composes site).statusBefore (transition fire.key _)

theorem after (fire : FireContext) (result : Except DispatchError Unit) :
    site.Uses (StatusListener.after site.book fire result) :=
  (composes site).statusAfter (transition fire.key _)

end Site.Uses

namespace Plant

variable {p : Plant σ η ν} {h h' : Host σ} {key : JobKey}

/-- Listeners other than the status listener do what those do who store jobs by registering them. -/
structure Disciplined (p : Plant σ η ν) : Prop where
  before : ∀ n, n ≠ p.status → ∀ fire, p.Uses ((p.listener n).before fire)
  after : ∀ n, n ≠ p.status → ∀ fire result, p.Uses ((p.listener n).after fire result)

theorem Disciplined.uses_before (others : p.Disciplined) (n : ν) (fire : FireContext) :
    p.Uses ((p.listener n).before fire) := by
  by_cases hn : n = p.status
  · rw [hn, p.keepsBook]
    exact .before fire
  · exact others.before n hn fire

theorem Disciplined.uses_after (others : p.Disciplined) (n : ν) (fire : FireContext)
    (result : Except DispatchError Unit) : p.Uses ((p.listener n).after fire result) := by
  by_cases hn : n = p.status
  · rw [hn, p.keepsBook]
    exact .after fire result
  · exact others.after n hn fire result

/-- One thing that happens: an act of those who store jobs by registering them, or half of a fire.
The run of a fire lies between its halves, and there anything may happen. -/
inductive Step (p : Plant σ η ν) : Host σ → Host σ → Prop where
  | use {α : Type} {a : Act σ α} (ha : p.Uses a) (h : Host σ) : Step p h (a h).2
  | launch (h : Host σ) : Step p h (p.engine.launch h).2
  | settle (taken : TakenFire ν) (outcome : FireOutcome) (h : Host σ) :
      Step p h (p.engine.settle taken outcome h).2
  | land (flight : Flight η ν) (result : Except DispatchError Unit) (h : Host σ) :
      Step p h (p.engine.land flight result h).2

inductive Reaches (p : Plant σ η ν) (start : Host σ) : Host σ → Prop where
  | start : Reaches p start start
  | next {mid last} : Reaches p start mid → Step p mid last → Reaches p start last

theorem Reaches.fireNext {start : Host σ} (run : p.Reaches start h)
    (hruns : ∀ handler, p.harness.MadeOf p.Uses (p.job handler)) :
    p.Reaches start (p.engine.fireNext h).2 := by
  have launched := run.next (.launch h)
  rw [fireNext_eq]
  cases (p.engine.launch h).1 with
  | idle => exact launched
  | grounded taken outcome => exact launched.next (.settle taken outcome _)
  | airborne flight =>
    have ran := launched.next
      (.use ((Site.Uses.composes _).run (hruns flight.handler) flight.context) _)
    exact ran.next (.land flight _ _)

theorem Reaches.runDue {start : Host σ} (run : p.Reaches start h)
    (hruns : ∀ handler, p.harness.MadeOf p.Uses (p.job handler)) (n : Nat) :
    p.Reaches start (p.engine.runDue n h).2 := by
  induction n generalizing h with
  | zero => exact run
  | succ n ih =>
    have fired := run.fireNext hruns
    rw [runDue_succ]
    cases (p.engine.fireNext h).1 with
    | idle => exact fired
    | crashed => exact fired
    | fired report => exact ih fired

abbrev Guards (p : Plant σ η ν) (h : Host σ) : Prop :=
  (p.scheduler.get h.app).Guarded StatusListener.name p.status

theorem Step.guards (step : Step p h h') (others : p.Disciplined) (hg : p.Guards h) :
    p.Guards h' := by
  cases step with
  | use ha => exact ha.guards h hg
  | launch =>
    exact launch_keeps (P := fun s _ => s.Guarded StatusListener.name p.status)
      (fun s l now hs => hs.take now) (fun n fire => (others.uses_before n fire).guards) h hg
  | settle taken outcome =>
    exact settle_keeps (P := fun s _ => s.Guarded StatusListener.name p.status)
      (fun s l now hs => hs.afterFire _ _ _ now) h hg
  | land flight result =>
    exact land_keeps (P := fun s _ => s.Guarded StatusListener.name p.status)
      (fun n fire result => (others.uses_after n fire result).guards)
      (fun s l now hs => hs.afterFire _ _ _ now) h hg

theorem Step.keeps_cancelled (step : Step p h h') (others : p.Disciplined)
    (hc : Cancelled (p.ledger.get h.app) key) : Cancelled (p.ledger.get h'.app) key := by
  cases step with
  | use ha => exact ha.keeps_cancelled h hc
  | launch =>
    exact launch_keeps (P := fun _ l => Cancelled l key) (fun s l now hl => hl)
      (fun n fire => (others.uses_before n fire).keeps_cancelled) h hc
  | settle taken outcome =>
    exact settle_keeps (P := fun _ l => Cancelled l key) (fun s l now hl => hl) h hc
  | land flight result =>
    exact land_keeps (P := fun _ l => Cancelled l key)
      (fun n fire result => (others.uses_after n fire result).keeps_cancelled)
      (fun s l now hl => hl) h hc

theorem Reaches.guards {start : Host σ} (run : p.Reaches start h) (others : p.Disciplined)
    (hg : p.Guards start) : p.Guards h := by
  induction run with
  | start => exact hg
  | next _ step ih => exact step.guards others ih

theorem Reaches.keeps_cancelled {start : Host σ} (run : p.Reaches start h) (others : p.Disciplined)
    (hc : Cancelled (p.ledger.get start.app) key) : Cancelled (p.ledger.get h.app) key := by
  induction run with
  | start => exact hc
  | next _ step ih => exact step.keeps_cancelled others ih

theorem cancel_ok {site : Site σ η ν} {row : JobStatus}
    (cancelled : (site.book.cancel key h).1 = .ok row) :
    Cancelled (site.ledger.get (site.book.cancel key h).2.app) key := by
  have hcancel : site.Triple (fun _ _ => True) (site.book.cancel key) fun r _ l =>
      r = .ok row → Cancelled l key := by
    refine Site.Triple.now.after fun time => Site.Triple.onLedger fun s l _ => ?_
    cases hmoved : l.transition key .cancelled time with
    | error e =>
      simp only [MemoryLedger.attempt, hmoved]
      intro hok
      cases hok
    | ok r =>
      simp only [MemoryLedger.attempt, hmoved]
      exact fun _ => MemoryLedger.cancelled_of_ok hmoved
  exact hcancel h trivial cancelled

theorem before_cancelled {site : Site σ η ν} (fire : FireContext) :
    site.Triple (fun _ l => Cancelled l fire.key) (StatusListener.before site.book fire)
      fun verdict _ l => Cancelled l fire.key ∧ verdict = .veto := by
  have hrefused : site.Triple (fun _ l => Cancelled l fire.key)
      (site.book.transition fire.key (.running fire.refireCount)) fun r _ l =>
        Cancelled l fire.key ∧ ∃ key, r = .error (.invalidTransition key .cancelled .running) := by
    refine Site.Triple.now.after fun time => Site.Triple.onLedger fun s l hl => ?_
    obtain ⟨key, hrefused⟩ :=
      MemoryLedger.transition_cancelled hl (.running fire.refireCount) time
    simp only [MemoryLedger.attempt, hrefused]
    exact ⟨hl, key, rfl⟩
  refine hrefused.bind fun r host hr => ?_
  obtain ⟨hl, key, rfl⟩ := hr
  exact ⟨hl, rfl⟩

/-- The status listener holds back a cancelled job, and the listeners before it can only do the
same. -/
theorem firstVeto_cancelled (others : p.Disciplined) {fire : FireContext}
    (hkey : fire.key = key) {listeners : Assoc String ν} {name : String}
    (hstatus : (name, p.status) ∈ listeners) :
    p.Triple (fun _ l => Cancelled l key) (p.engine.firstVeto fire listeners)
      fun veto _ _ => veto.isSome := by
  induction listeners with
  | nil => cases hstatus
  | cons entry rest ih =>
    have hbefore : p.Triple (fun _ l => Cancelled l key) ((p.listener entry.2).before fire)
        fun verdict _ l => Cancelled l key ∧ (entry.2 = p.status → verdict = .veto) := by
      by_cases hentry : entry.2 = p.status
      · rw [hentry, p.keepsBook, ← hkey]
        exact (before_cancelled fire).mono (fun _ _ hh => hh) fun _ _ _ hh => ⟨hh.1, fun _ => hh.2⟩
      · exact (others.before entry.2 hentry fire).keeps_cancelled.mono (fun _ _ hh => hh)
          fun _ _ _ hh => ⟨hh, fun heq => absurd heq hentry⟩
    refine hbefore.bind fun verdict => ?_
    cases verdict with
    | veto => exact Site.Triple.pure fun _ _ _ => rfl
    | proceed =>
      by_cases hentry : entry.2 = p.status
      · exact fun host hh => absurd (hh.2 hentry) Verdict.noConfusion
      · have hrest : (name, p.status) ∈ rest := by
          rcases List.mem_cons.mp hstatus with rfl | hrest
          · exact absurd rfl hentry
          · exact hrest
        exact (ih hrest).mono (fun _ _ hh => hh.1) fun _ _ _ hh => hh

theorem permit_cancelled (others : p.Disciplined) {fire : FireContext} (hkey : fire.key = key)
    {listeners : Assoc String ν} {name : String} (hstatus : (name, p.status) ∈ listeners) :
    p.Triple (fun s l => s.hasHandler fire.definition.kind ∧ Cancelled l key)
      (p.engine.permit fire listeners) fun r _ _ => r = .error .vetoed := by
  have hread : p.Triple (fun s l => s.hasHandler fire.definition.kind ∧ Cancelled l key)
      (p.engine.scheduler.read (·.registry.resolve fire.definition.kind)) fun handler _ l =>
        handler.isSome ∧ Cancelled l key := fun _ hh => hh
  refine hread.bind fun handler => ?_
  cases handler with
  | none => exact fun _ hh => absurd hh.1 Bool.false_ne_true
  | some handler =>
    have hveto := firstVeto_cancelled others hkey hstatus
    refine (hveto.mono (fun _ _ hh => hh.2) fun _ _ _ hh => hh).bind fun veto => ?_
    cases veto with
    | none => exact fun _ hh => absurd hh Bool.false_ne_true
    | some name => exact (Site.Triple.log _ _ _ _).after fun _ => Site.Triple.pure fun _ _ _ => rfl

section

variable {q : QueuedFire} {rest : List QueuedFire}

/-- When the next fire is due and of a cancelled job, it is taken and vetoed. -/
theorem launch_cancelled (others : p.Disciplined) (hg : p.Guards h)
    (hc : Cancelled (p.ledger.get h.app) key) (hqueue : (p.scheduler.get h.app).queue = q :: rest)
    (hkey : q.fire.key = key) (hdue : q.due ≤ (Act.now h).1) :
    ∃ taken : TakenFire ν, taken.fire = q.fire ∧
      (p.engine.launch h).1 = .grounded taken .vetoed := by
  have hstored := hg.queued q (hqueue ▸ List.mem_cons_self)
  obtain ⟨job, hjob⟩ := Option.isSome_iff_exists.mp hstored
  have hjobkey := hg.filed _ job hjob
  have hhandler := hg.handled _ job hjob
  let listeners := (p.scheduler.get h.app).listenersFor q.fire.key
  have hstatus : (StatusListener.name, p.status) ∈ listeners :=
    List.mem_filter.mpr ⟨hg.listener, hg.matched _ hstored⟩
  let taken : TakenFire ν := { fire := q.fire, job, listeners }
  have htake := Scheduler.take_due hqueue hdue hjob
  have htaken : p.Triple (fun s l => s = p.scheduler.get h.app ∧ Cancelled l key)
      (p.engine.scheduler.run (·.take (Act.now h).1)) fun r s l =>
        r = some taken ∧ s.hasHandler job.definition.kind ∧ Cancelled l key := by
    refine Site.Triple.onScheduler fun s l hh => ?_
    obtain ⟨rfl, hl⟩ := hh
    rw [htake]
    exact ⟨rfl, hhandler, hl⟩
  have hlaunch : p.Triple (fun s l => s = p.scheduler.get h.app ∧ Cancelled l key)
      (p.engine.launchBy (Act.now h).1) fun r _ _ => r = .grounded taken .vetoed := by
    refine htaken.bind fun r => Site.Triple.assuming ?_
    rintro rfl
    have hcreate : p.Triple (fun s l => s.hasHandler job.definition.kind ∧ Cancelled l key)
        (FireContext.create job.definition q.fire.triggerData q.fire.refireCount) fun fire s l =>
          fire.definition = job.definition ∧ s.hasHandler job.definition.kind ∧ Cancelled l key :=
      fun _ hh => ⟨rfl, hh⟩
    refine hcreate.bind fun fire => ?_
    apply Site.Triple.assuming
    intro hdefinition
    rw [← hdefinition] at hjobkey ⊢
    let context : FireContext := { fire with scheduledFor := q.fire.scheduledFor }
    have hcontext : context.key = key := hjobkey.trans hkey
    have hpermit : p.Triple (fun s l => s.hasHandler context.definition.kind ∧ Cancelled l key)
        (p.engine.permit context listeners) fun r _ _ => r = .error .vetoed :=
      permit_cancelled others hcontext hstatus
    refine hpermit.bind fun r host hr => ?_
    subst hr
    rfl
  exact ⟨taken, rfl, hlaunch (Act.now h).2 ⟨rfl, hc⟩⟩

private theorem fireNext_vetoed {taken : TakenFire ν}
    (hlaunch : (p.engine.launch h).1 = .grounded taken .vetoed) :
    p.engine.fireNext h = p.engine.settle taken .vetoed (p.engine.launch h).2 := by
  rw [fireNext_eq, hlaunch]

def staffed (p : Plant σ η ν) (harness : Harness σ) (job : η → Job σ) : Plant σ η ν :=
  { p with harness, job }

private theorem launch_staffed (p : Plant σ η ν) (harness : Harness σ) (job : η → Job σ) :
    (p.staffed harness job).engine.launch = p.engine.launch := Engine.launch_congr rfl rfl

theorem launch_queue (quiet : ∀ n, n ≠ p.status → ∀ fire (h : Host σ),
      p.scheduler.get ((p.listener n).before fire h).2.app = p.scheduler.get h.app)
    {taken : Option (TakenFire ν)} {s : Scheduler η ν}
    (htake : (p.scheduler.get h.app).take (Act.now h).1 = (taken, s)) :
    p.scheduler.get (p.engine.launch h).2.app = s := by
  have hbefore : ∀ n fire, p.Keeps (fun s' _ => s' = s) ((p.listener n).before fire) := by
    intro n fire
    by_cases hn : n = p.status
    · rw [hn, p.keepsBook]
      exact Site.Triple.statusBefore fun _ _ _ _ hs _ => hs
    · intro host hs
      rw [quiet n hn]
      exact hs
  have hlaunch : p.Triple (fun s' _ => s' = p.scheduler.get h.app)
      (p.engine.launchBy (Act.now h).1) fun _ s' _ => s' = s :=
    launchBy_triple (fun s' l hs => by rw [hs, htake]) hbefore
  exact hlaunch (Act.now h).2 rfl

end

/-- After a job was cancelled each fire of it that is taken ends vetoed. Its body has no part in
that, nothing is queued after the veto, and so the queue only loses this fire. -/
theorem cancelled_never_runs (p : Plant σ η ν) (others : p.Disciplined) {start mid h : Host σ}
    {key : JobKey} {row : JobStatus} {q : QueuedFire} {rest : List QueuedFire}
    (hjobs : (p.scheduler.get start.app).jobs = [])
    (hwaiting : (p.scheduler.get start.app).queue = [])
    (hlistener : (StatusListener.name, p.status) ∈ (p.scheduler.get start.app).listeners)
    (earlier : p.Reaches start mid) (cancelled : (p.book.cancel key mid).1 = .ok row)
    (later : p.Reaches (p.book.cancel key mid).2 h)
    (hqueue : (p.scheduler.get h.app).queue = q :: rest) (hkey : q.fire.key = key)
    (hdue : q.due ≤ (Act.now h).1) :
    (p.engine.fireNext h).1 =
        .fired { key, attempt := q.fire.refireCount, outcome := .vetoed } ∧
      (∀ harness job, (p.staffed harness job).engine.fireNext h = p.engine.fireNext h) ∧
      p.scheduler.get (p.engine.fireNext h).2.app = p.scheduler.get (p.engine.launch h).2.app ∧
      ((∀ n, n ≠ p.status → ∀ fire (h : Host σ),
          p.scheduler.get ((p.listener n).before fire h).2.app = p.scheduler.get h.app) →
        p.scheduler.get (p.engine.fireNext h).2.app =
          { p.scheduler.get h.app with queue := rest }) := by
  have hstart : p.Guards start :=
    { listener := hlistener, matched := by simp [Scheduler.contains, Assoc.has, hjobs]
      filed := by simp [Scheduler.Filed, hjobs], handled := by simp [hjobs]
      queued := by simp [hwaiting] }
  have hmid : p.Guards mid := earlier.guards others hstart
  have hcancel : p.Step mid (p.book.cancel key mid).2 := .use (.cancel key) mid
  have hg : p.Guards h := later.guards others (hcancel.guards others hmid)
  have hc : Cancelled (p.ledger.get h.app) key :=
    later.keeps_cancelled others (cancel_ok cancelled)
  obtain ⟨taken, htaken, hlaunch⟩ := launch_cancelled others hg hc hqueue hkey hdue
  have hfire := fireNext_vetoed hlaunch
  obtain ⟨hstays, hreport⟩ := settle_vetoed
    (P := fun s _ => s = p.scheduler.get (p.engine.launch h).2.app) taken (p.engine.launch h).2 rfl
  rw [← hfire] at hstays hreport
  refine ⟨?_, fun harness job => ?_, hstays, fun quiet => ?_⟩
  · rw [hreport, htaken, hkey]
  · have hother : ((p.staffed harness job).engine.launch h).1 = .grounded taken .vetoed := by
      rw [launch_staffed, hlaunch]
    rw [fireNext_vetoed hother, launch_staffed, hfire]
    rfl
  · have hstored := hg.queued q (hqueue ▸ List.mem_cons_self)
    obtain ⟨job, hjob⟩ := Option.isSome_iff_exists.mp hstored
    rw [hstays, launch_queue quiet (Scheduler.take_due hqueue hdue hjob)]

/-- A job that is cancelled before its only slot comes is vetoed there. -/
theorem cancelled_slot_vetoed :
    (retrying.engine.fireNext (retrying.book.cancel report.key registered).2).1 =
      .fired { key := report.key, attempt := 0, outcome := .vetoed } := by
  have others : retrying.Disciplined := ⟨fun _ h => absurd rfl h, fun _ h => absurd rfl h⟩
  have registering : retrying.Reaches opened registered := .next .start (.use (.scheduleJob _ _) _)
  have listening : (StatusListener.name, retrying.status) ∈
      (retrying.scheduler.get opened.app).listeners := List.mem_singleton.mpr rfl
  exact (cancelled_never_runs retrying others rfl rfl listening registering rfl .start rfl rfl
    (by decide)).1

end Plant

end JobEngine
