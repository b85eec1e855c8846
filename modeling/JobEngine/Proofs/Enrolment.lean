import JobEngine.Proofs.Cancellation
/-! What a registration comes to. It ends in one of four ways, each with the row and the job as they
are then; everything said of registrations is read off these. -/

namespace JobEngine

namespace Scheduler

variable {η ν : Type} {s s' : Scheduler η ν} {definition : JobDefinition} {trigger : Option Trigger}

def refusal (s : Scheduler η ν) (definition : JobDefinition) : Option SchedulerError :=
  if !s.hasHandler definition.kind then some (.noHandler definition.kind)
  else if s.contains definition.key then some (.alreadyScheduled definition.key)
  else none

def attach (s : Scheduler η ν) (definition : JobDefinition) :
    Option Trigger → Except SchedulerError (Scheduler η ν)
  | some trigger => s.scheduleJob definition trigger
  | none => s.addJob definition false

def accept (s : Scheduler η ν) (definition : JobDefinition) (trigger : Option Trigger) :
    Scheduler η ν :=
  let stored := s.store definition.key { definition, trigger }
  match trigger with
  | some trigger =>
    stored.enqueue trigger.schedule.firstFire (firstFire definition.key trigger)
  | none => stored

theorem attach_eq (s : Scheduler η ν) (definition : JobDefinition) (trigger : Option Trigger) :
    s.attach definition trigger =
      match s.refusal definition with
      | some e => .error e
      | none => .ok (s.accept definition trigger) := by
  unfold refusal
  cases hhandler : s.hasHandler definition.kind with
  | false => cases trigger <;> simp [attach, scheduleJob, addJob, hhandler]
  | true =>
    have hstored : s.contains definition.key = (s.jobs.get? definition.key).isSome := rfl
    rw [hstored]
    cases trigger with
    | some trigger =>
      unfold attach scheduleJob
      rw [hstored, hhandler]
      cases s.jobs.get? definition.key <;> rfl
    | none =>
      unfold attach addJob
      rw [hhandler]
      cases s.jobs.get? definition.key <;> rfl

private theorem refusal_addMatcher {name : String} {key : JobKey}
    (h : s.addMatcher name key = .ok s') :
    s'.refusal definition = s.refusal definition := by
  obtain ⟨matchers, rfl⟩ := addMatcher_ok h
  rfl

private theorem addMatcher_cases (s : Scheduler η ν) (name : String) (key : JobKey) :
    (s.listeners.has name = false ∧ s.addMatcher name key = .error (.unknownListener name)) ∨
      s.listeners.has name ∧ ∃ s', s.addMatcher name key = .ok s' := by
  unfold addMatcher
  cases s.listeners.has name with
  | false => exact .inl ⟨rfl, rfl⟩
  | true => exact .inr ⟨rfl, _, rfl⟩

end Scheduler

/-- How a registration ends, with the scheduler and the ledger as they are then. -/
inductive Registered {η ν : Type} (definition : JobDefinition) (trigger : Option Trigger)
    (s : Scheduler η ν) (l : MemoryLedger) :
    Except RegistrationError JobStatus → Scheduler η ν → MemoryLedger → Prop where
  | unheard (hunheard : s.listeners.has StatusListener.name = false) :
      Registered definition trigger s l
        (.error (.scheduler definition.key (.unknownListener StatusListener.name))) s l
  | adopted {s' : Scheduler η ν} {row : JobStatus} (now : Instant)
      (hmatched : s.addMatcher StatusListener.name definition.key = .ok s')
      (hrow : l.get? definition.key = some row) :
      Registered definition trigger s l (.ok (l.merge row now).1) s' (l.merge row now).2
  | created {s' : Scheduler η ν} (now : Instant)
      (hmatched : s.addMatcher StatusListener.name definition.key = .ok s')
      (hnone : l.get? definition.key = none) (haccepted : s.refusal definition = none) :
      Registered definition trigger s l (.ok (.initial definition trigger.isSome now))
        (s'.accept definition trigger) (l.put (.initial definition trigger.isSome now))
  | refused {s' : Scheduler η ν} {l' : MemoryLedger} (now : Instant) (e : SchedulerError)
      (answer : Except LedgerError JobStatus)
      (hmatched : s.addMatcher StatusListener.name definition.key = .ok s')
      (hnone : l.get? definition.key = none) (hrefused : s.refusal definition = some e)
      (hfailed : (l.put (.initial definition trigger.isSome now)).Answers definition.key
        (.failed e.message) answer l') :
      Registered definition trigger s l (.error (.scheduler definition.key e)) s' l'

namespace Site.Triple

variable {σ η ν : Type} {site : Site σ η ν} {s : Scheduler η ν} {l : MemoryLedger} {key : JobKey}

abbrev Are (s : Scheduler η ν) (l : MemoryLedger) : Scheduler η ν → MemoryLedger → Prop :=
  fun s' l' => s' = s ∧ l' = l

/-- The row that was read is written over the one that is there by then. -/
theorem adopts {ledger : StatusLedger σ} {row : JobStatus} {mid : MemoryLedger}
    (hget : site.Triple (Are s l) (ledger.get key) fun r s' l' =>
      r = .ok (some row) ∧ Are s mid s' l')
    (hmerge : ledger.merge = site.book.merge) :
    site.Triple (Are s l) (Registration.adoptExisting ledger key) fun r s' l' =>
      s' = s ∧ ∃ now, r = .ok (mid.merge row now).1 ∧ l' = (mid.merge row now).2 := by
  refine hget.bind fun r => assuming ?_
  rintro rfl
  have hmerged : site.Triple (Are s mid) (ledger.merge row) fun r s' l' =>
      s' = s ∧ ∃ now, r = .ok (mid.merge row now).1 ∧ l' = (mid.merge row now).2 := by
    rw [hmerge]
    refine now.after fun time => onLedger ?_
    rintro _ _ ⟨rfl, rfl⟩
    exact ⟨rfl, time, rfl, rfl⟩
  refine hmerged.bind fun r => ?_
  cases r with
  | error e =>
    refine pure ?_
    rintro _ _ ⟨-, _, hmerged, -⟩
    cases hmerged
  | ok merged =>
    refine (log _ _ _ _).after fun _ => pure ?_
    rintro _ _ ⟨hs, time, hmerged, hl⟩
    cases hmerged
    exact ⟨hs, time, rfl, hl⟩

theorem reads {row : JobStatus} (hrow : l.get? key = some row) :
    site.Triple (Are s l) (site.book.get key) fun r s' l' =>
      r = .ok (some row) ∧ Are s l s' l' := by
  rintro host ⟨hs, hl⟩
  refine ⟨?_, hs, hl⟩
  change Except.ok ((site.ledger.get host.app).get? key) = _
  rw [hl, hrow]

theorem fails (cause : SchedulerError) :
    site.Triple (Are s l) (Registration.failStatus site.book key cause) fun _ s' l' =>
      s' = s ∧ ∃ answer, l.Answers key (.failed cause.message) answer l' := by
  have hmark : site.Triple (Are s l) (site.book.transition key (.failed cause.message))
      fun r s' l' => s' = s ∧ l.Answers key (.failed cause.message) r l' := by
    refine now.after fun time => onLedger ?_
    rintro _ _ ⟨rfl, rfl⟩
    exact ⟨rfl, MemoryLedger.answers_attempt _ _ _ _⟩
  refine (log _ _ _ _).after fun _ => hmark.bind fun r => ?_
  cases r with
  | error e =>
    exact (log _ _ _ _).mono (fun _ _ h => h) fun _ _ _ h => ⟨h.1, .error e, h.2⟩
  | ok row => exact pure fun _ _ h => ⟨h.1, .ok row, h.2⟩

theorem attaches (definition : JobDefinition) (trigger : Option Trigger) :
    site.Triple (Are s l) (Registration.attach site.service definition trigger) fun r s' l' =>
      l' = l ∧ ((∃ e, s.refusal definition = some e ∧ r = .error e ∧ s' = s) ∨
        s.refusal definition = none ∧ r = .ok () ∧ s' = s.accept definition trigger) := by
  have hattempt : site.Triple (Are s l)
      (Scheduler.attempt site.scheduler (·.attach definition trigger)) fun r s' l' =>
        l' = l ∧ ((∃ e, s.refusal definition = some e ∧ r = .error e ∧ s' = s) ∨
          s.refusal definition = none ∧ r = .ok () ∧ s' = s.accept definition trigger) := by
    have hattach := s.attach_eq definition trigger
    refine attempt ?_ ?_
    · rintro _ s' _ ⟨rfl, rfl⟩ hok
      rw [hattach] at hok
      split at hok
      · cases hok
      next haccepted =>
        cases hok
        exact ⟨rfl, .inr ⟨haccepted, rfl, rfl⟩⟩
    · rintro _ _ e ⟨rfl, rfl⟩ herror
      rw [hattach] at herror
      split at herror
      next hrefused =>
        cases herror
        exact ⟨rfl, .inl ⟨e, hrefused, rfl, rfl⟩⟩
      · cases herror
  cases trigger with
  | none => exact hattempt
  | some trigger =>
    refine hattempt.bind ?_
    rintro (e | ⟨⟩)
    · exact pure fun _ _ h => h
    · exact (log _ _ _ _).after fun _ => pure fun _ _ h => h

theorem hears : site.Triple (Are s l) (site.service.addMatcher StatusListener.name key)
    fun r s' l' => l' = l ∧
      ((s.listeners.has StatusListener.name = false ∧ s' = s ∧
        r = .error (.unknownListener StatusListener.name)) ∨
      s.addMatcher StatusListener.name key = .ok s' ∧ r = .ok ()) := by
  change site.Triple _ (Scheduler.attempt site.scheduler (·.addMatcher StatusListener.name key)) _
  refine attempt ?_ ?_
  · rintro _ s' _ ⟨rfl, rfl⟩ hok
    exact ⟨rfl, .inr ⟨hok, rfl⟩⟩
  · rintro s _ e ⟨rfl, rfl⟩ herror
    obtain ⟨hunheard, hmatch⟩ | ⟨-, s', hmatch⟩ := s.addMatcher_cases StatusListener.name key
    · cases hmatch.symm.trans herror
      exact ⟨rfl, .inl ⟨hunheard, rfl, rfl⟩⟩
    · cases hmatch.symm.trans herror

theorem creates {row : JobStatus} : site.Triple (Are s l) (site.book.create row) fun r s' l' =>
    s' = s ∧ ((∃ old, l.get? row.id = some old ∧ r = .error (.alreadyExists row.id) ∧ l' = l) ∨
      l.get? row.id = none ∧ r = .ok () ∧ l' = l.put row) := by
  refine onLedger ?_
  rintro _ l ⟨rfl, rfl⟩
  refine ⟨rfl, ?_⟩
  have hcreate : l.create row =
      if (l.get? row.id).isSome then .error (.alreadyExists row.id) else .ok (l.put row) := rfl
  cases hrow : l.get? row.id with
  | some old =>
    rw [hrow] at hcreate
    simp only [MemoryLedger.attempt, hcreate, Option.isSome_some, ↓reduceIte, Except.map]
    exact .inl ⟨old, rfl, trivial, trivial⟩
  | none =>
    rw [hrow] at hcreate
    simp only [MemoryLedger.attempt, hcreate]
    exact .inr ⟨trivial, rfl, rfl⟩

/-- A registration ends in one of these ways. -/
theorem registers (definition : JobDefinition) (trigger : Option Trigger) :
    site.Triple (Are s l) (Registration.scheduleJob site.book site.service definition trigger)
      (Registered definition trigger s l) := by
  refine hears.bind ?_
  rintro (e | ⟨⟩)
  · refine pure ?_
    rintro s' l' ⟨rfl, ⟨hunheard, rfl, he⟩ | ⟨-, he⟩⟩
    · cases he
      exact .unheard hunheard
    · cases he
  apply naming
  rintro matched l ⟨rfl, ⟨-, -, hno⟩ | ⟨hmatched, -⟩⟩
  · cases hno
  have hrow : site.Triple (Are matched l) (JobStatus.register definition trigger.isSome)
      fun row s' l' => (∃ now, row = .initial definition trigger.isSome now) ∧
        Are matched l s' l' := by
    intro host hhost
    rw [JobStatus.register_app]
    exact ⟨⟨_, rfl⟩, hhost⟩
  refine hrow.bind fun row => assuming ?_
  rintro ⟨now, rfl⟩
  refine creates.bind ?_
  rintro (e | ⟨⟩)
  · apply naming
    rintro _ _ ⟨rfl, ⟨old, hold, he, rfl⟩ | ⟨-, hno, -⟩⟩
    · cases he
      refine (adopts (reads hold) rfl).mono (fun _ _ h => h) ?_
      rintro _ _ _ ⟨rfl, time, rfl, rfl⟩
      exact .adopted time hmatched hold
    · cases hno
  · apply naming
    rintro matched _ ⟨rfl, ⟨-, -, hno, -⟩ | ⟨hnone, -, rfl⟩⟩
    · cases hno
    have hsame : matched.refusal definition = s.refusal definition :=
      Scheduler.refusal_addMatcher hmatched
    refine (attaches definition trigger).bind ?_
    rintro (e | ⟨⟩)
    · apply naming
      rintro _ _ ⟨rfl, ⟨_, hrefused, he, rfl⟩ | ⟨-, hno, -⟩⟩
      · cases he
        refine (fails e).bind fun _ => pure ?_
        rintro _ l' ⟨rfl, answer, hfailed⟩
        exact .refused now e answer hmatched hnone (hsame ▸ hrefused) hfailed
      · cases hno
    · refine (log _ _ _ _).after fun _ => pure ?_
      rintro _ _ ⟨rfl, ⟨_, -, hno, -⟩ | ⟨haccepted, -, rfl⟩⟩
      · cases hno
      · exact .created now hmatched hnone (hsame ▸ haccepted)

end Site.Triple

namespace Scheduler

variable {η ν : Type}

def firstFires (s : Scheduler η ν) (key : JobKey) : Option Trigger → List QueuedFire
  | some trigger =>
    [{ due := trigger.schedule.firstFire, seq := s.seq + 1, fire := firstFire key trigger }]
  | none => []

private theorem queue_accept (s : Scheduler η ν) (definition : JobDefinition)
    (trigger : Option Trigger) :
    (s.accept definition trigger).queue.Perm (s.firstFires definition.key trigger ++ s.queue) := by
  cases trigger with
  | none => exact .refl _
  | some trigger => exact place_perm _ _

theorem jobs_accept (s : Scheduler η ν) (definition : JobDefinition) (trigger : Option Trigger)
    (k : JobKey) : (s.accept definition trigger).jobs.get? k =
      if definition.key = k then some { definition, trigger } else s.jobs.get? k := by
  cases trigger <;> exact jobs_store

@[simp] private theorem listens_accept (s : Scheduler η ν) (definition : JobDefinition)
    (trigger : Option Trigger) (name : String) (key : JobKey) :
    (s.accept definition trigger).listens name key = s.listens name key := by
  cases trigger <;> rfl

end Scheduler

theorem Site.Uses.files {σ η ν α : Type} {site : Site σ η ν} {a : Act σ α} (ha : site.Uses a) :
    site.Keeps (fun _ l => l.Filed) a := by
  induction ha with
  | apart h => exact h.keeps
  | bind _ _ ha hf => exact ha.after hf
  | scheduleJob definition trigger =>
    refine Triple.scheduleJob (M := fun _ l => l.Filed) ?_ trigger
    exact
      { weaken := fun s l h => h
        matched := fun s s' l h hs => h
        created := fun s l l' row h _ _ hl => h.create hl
        merged := fun s l row now h _ => h.merge
        scheduled := fun s s' l definition trigger h hkey hs => h
        added := fun s s' l definition h hkey hs => h
        refused := fun s l cause now r h hl => h.transition hl }
  | triggerNow key data => exact Triple.triggerNow fun s s' l now h hs => h
  | deleteJob key => exact Triple.deleteJob fun s l h => h
  | create row => exact Triple.create (fun s l l' h hl => h.create hl) fun s l h => h
  | merge row => exact Triple.merge fun s l now h => h.merge
  | transition key u => exact Triple.transition fun s l now r h hl => h.transition hl

namespace Registered

variable {η ν : Type} {definition : JobDefinition} {trigger : Option Trigger}
variable {s s' : Scheduler η ν} {l l' : MemoryLedger} {answer : Except RegistrationError JobStatus}

theorem heard {name : String} {key : JobKey} (h : s.addMatcher name key = .ok s') :
    s.listeners.has name := by
  obtain ⟨-, hmatch⟩ | ⟨hheard, -⟩ := s.addMatcher_cases name key
  · cases hmatch.symm.trans h
  · exact hheard

theorem failed_row {now : Instant} {e : SchedulerError} {answer : Except LedgerError JobStatus}
    (h : (l.put (.initial definition trigger.isSome now)).Answers definition.key
      (.failed e.message) answer l') :
    ∃ row, row.id = definition.key ∧ row.state = .failed ∧ row.result = some e.message ∧
      l' = (l.put (.initial definition trigger.isSome now)).put row := by
  have hrow : (l.put (.initial definition trigger.isSome now)).get? definition.key =
      some (.initial definition trigger.isSome now) := l.get?_put_own rfl
  have hmove : (JobStatus.initial definition trigger.isSome now).state.canMoveTo .failed := by
    cases trigger <;> rfl
  obtain ⟨later, row, hmoved, -, rfl⟩ := h.of_movable hrow hmove
  obtain ⟨hid, hstate, hresult, -⟩ := MemoryLedger.apply_ok hmoved
  have hid : row.id = definition.key := hid
  refine ⟨row, hid, hstate, hresult, ?_⟩
  rw [← hid]
  rfl

section

variable (h : Registered definition trigger s l answer s' l')

include h

theorem get?_of_ne (filed : l.Filed) {k : JobKey} (hk : k ≠ definition.key) :
    l'.get? k = l.get? k := by
  cases h with
  | unheard => rfl
  | @adopted _ row now _ hrow =>
    have hid : row.id = definition.key := filed _ _ hrow
    rw [MemoryLedger.merge_own (hid.symm ▸ hrow) now, MemoryLedger.get?_put]
    exact if_neg fun hsame => hk (hsame.symm.trans hid)
  | created =>
    rw [MemoryLedger.get?_put]
    exact if_neg hk.symm
  | refused _ _ _ _ _ _ hfailed =>
    obtain ⟨row, hid, -, -, rfl⟩ := failed_row hfailed
    rw [MemoryLedger.get?_put, hid, if_neg hk.symm, MemoryLedger.get?_put]
    exact if_neg hk.symm

theorem of_unheard (hunheard : s.listeners.has StatusListener.name = false) :
    answer = .error (.scheduler definition.key (.unknownListener StatusListener.name)) ∧
      s' = s ∧ l' = l := by
  cases h with
  | unheard => exact ⟨rfl, rfl, rfl⟩
  | adopted _ hmatched | created _ hmatched | refused _ _ _ hmatched =>
    cases hunheard.symm.trans (heard hmatched)

variable (hheard : s.listeners.has StatusListener.name)

include hheard

theorem of_row {row : JobStatus} (hrow : l.get? definition.key = some row)
    (hid : row.id = definition.key) :
    ∃ kept, answer = .ok kept ∧ l'.get? definition.key = some kept ∧
      kept = { row with updatedAt := kept.updatedAt } ∧ (row.state = .cancelled → kept = row) ∧
      l'.size = l.size ∧ s'.jobs = s.jobs ∧ s'.queue = s.queue := by
  cases h with
  | unheard hunheard => cases hunheard.symm.trans hheard
  | created _ _ hnone | refused _ _ _ _ hnone => cases hnone.symm.trans hrow
  | adopted now hmatched hrow' =>
    cases hrow.symm.trans hrow'
    obtain ⟨matchers, rfl⟩ := Scheduler.addMatcher_ok hmatched
    rw [MemoryLedger.merge_own (hid.symm ▸ hrow) now]
    refine ⟨_, rfl, l.get?_put_own hid, rfl, ?_, ?_, rfl, rfl⟩
    · intro hcancelled
      rw [if_pos hcancelled]
    · exact MemoryLedger.size_put_of_some hid hrow

variable (hnone : l.get? definition.key = none)

include hnone

theorem of_accepted (haccepted : s.refusal definition = none) :
    ∃ row, answer = .ok row ∧ l'.get? definition.key = some row ∧ l'.size = l.size + 1 ∧
      (∃ now, row = .initial definition trigger.isSome now) ∧
      row.state = (if trigger.isSome then .pending else .created) ∧
      (∀ k, s'.jobs.get? k =
        if definition.key = k then some { definition, trigger } else s.jobs.get? k) ∧
      s'.listens StatusListener.name definition.key ∧
      s'.queue.Perm (s.firstFires definition.key trigger ++ s.queue) := by
  cases h with
  | unheard hunheard => cases hunheard.symm.trans hheard
  | adopted _ _ hrow => cases hnone.symm.trans hrow
  | refused _ _ _ _ _ hrefused => cases haccepted.symm.trans hrefused
  | @created matched now hmatched =>
    have hlistens := (Scheduler.listens_addMatcher hmatched).1
    obtain ⟨matchers, rfl⟩ := Scheduler.addMatcher_ok hmatched
    refine ⟨_, rfl, l.get?_put_own rfl, ?_, ⟨now, rfl⟩, rfl, ?_, ?_, ?_⟩
    · exact MemoryLedger.size_put_of_none rfl hnone
    · exact Scheduler.jobs_accept _ definition trigger
    · rw [Scheduler.listens_accept]
      exact hlistens
    · exact Scheduler.queue_accept _ definition trigger

theorem of_refused {e : SchedulerError} (hrefused : s.refusal definition = some e) :
    answer = .error (.scheduler definition.key e) ∧
      (∃ row, l'.get? definition.key = some row ∧ row.state = .failed ∧
        row.result = some e.message) ∧
      l'.size = l.size + 1 ∧ s'.jobs = s.jobs ∧ s'.queue = s.queue := by
  cases h with
  | unheard hunheard => cases hunheard.symm.trans hheard
  | adopted _ _ hrow => cases hnone.symm.trans hrow
  | created _ _ _ haccepted => cases haccepted.symm.trans hrefused
  | refused now _ _ hmatched _ hrefused' hfailed =>
    cases hrefused.symm.trans hrefused'
    obtain ⟨matchers, rfl⟩ := Scheduler.addMatcher_ok hmatched
    obtain ⟨row, hid, hstate, hresult, rfl⟩ := failed_row hfailed
    refine ⟨rfl, ⟨row, MemoryLedger.get?_put_own _ hid, hstate, hresult⟩, ?_, rfl, rfl⟩
    exact (MemoryLedger.size_put_of_some hid (l.get?_put_own rfl)).trans
      (MemoryLedger.size_put_of_none rfl hnone)

end

end Registered

/-- What a registration comes to. The rows of other keys stay as they are, and one of four things
happens: nothing, when nobody would keep the row; the row that the key has is kept; a row and a job
are there that were not; or there is a row that says why there is no job. -/
structure Enrolment {η ν : Type} (definition : JobDefinition) (trigger : Option Trigger)
    (s : Scheduler η ν) (l : MemoryLedger) (answer : Except RegistrationError JobStatus)
    (s' : Scheduler η ν) (l' : MemoryLedger) : Prop where
  others : ∀ k, k ≠ definition.key → l'.get? k = l.get? k
  unheard : s.listeners.has StatusListener.name = false →
    answer = .error (.scheduler definition.key (.unknownListener StatusListener.name)) ∧
      s' = s ∧ l' = l
  adopted : s.listeners.has StatusListener.name → ∀ row, l.get? definition.key = some row →
    ∃ kept, answer = .ok kept ∧ l'.get? definition.key = some kept ∧
      kept = { row with updatedAt := kept.updatedAt } ∧ (row.state = .cancelled → kept = row) ∧
      l'.size = l.size ∧ s'.jobs = s.jobs ∧ s'.queue = s.queue
  created : s.listeners.has StatusListener.name → l.get? definition.key = none →
    s.refusal definition = none →
    ∃ row, answer = .ok row ∧ l'.get? definition.key = some row ∧ l'.size = l.size + 1 ∧
      (∃ now, row = .initial definition trigger.isSome now) ∧
      row.state = (if trigger.isSome then .pending else .created) ∧
      (∀ k, s'.jobs.get? k =
        if definition.key = k then some { definition, trigger } else s.jobs.get? k) ∧
      s'.listens StatusListener.name definition.key ∧
      s'.queue.Perm (s.firstFires definition.key trigger ++ s.queue)
  refused : s.listeners.has StatusListener.name → l.get? definition.key = none →
    ∀ e, s.refusal definition = some e → answer = .error (.scheduler definition.key e) ∧
      (∃ row, l'.get? definition.key = some row ∧ row.state = .failed ∧
        row.result = some e.message) ∧
      l'.size = l.size + 1 ∧ s'.jobs = s.jobs ∧ s'.queue = s.queue

/-- A registration creates or adopts, and what it does is done in full or put on record. -/
theorem registration_creates_or_adopts {σ η ν : Type} (site : Site σ η ν)
    (definition : JobDefinition) (trigger : Option Trigger) (h : Host σ)
    (filed : (site.ledger.get h.app).Filed) :
    let r := Registration.scheduleJob site.book site.service definition trigger h
    Enrolment definition trigger (site.scheduler.get h.app) (site.ledger.get h.app) r.1
        (site.scheduler.get r.2.app) (site.ledger.get r.2.app) ∧
      (site.ledger.get r.2.app).Filed := by
  intro r
  have registered : Registered definition trigger (site.scheduler.get h.app)
      (site.ledger.get h.app) r.1 (site.scheduler.get r.2.app) (site.ledger.get r.2.app) :=
    Site.Triple.registers definition trigger h ⟨rfl, rfl⟩
  constructor
  · constructor
    · exact fun k hk => registered.get?_of_ne filed hk
    · exact registered.of_unheard
    · exact fun hheard row hrow => registered.of_row hheard hrow (filed _ _ hrow)
    · exact registered.of_accepted
    · exact fun hheard hnone e hrefused => registered.of_refused hheard hnone hrefused
  · exact (Site.Uses.scheduleJob definition trigger).files h filed

namespace Plant

def weekly : JobDefinition := { key := ⟨"daily"⟩, kind := "weekly" }

theorem unhandled_job_recorded :
    let r := Registration.scheduleJob retrying.book retrying.service weekly none opened
    r.1 = .error (.scheduler ⟨"daily"⟩ (.noHandler "weekly")) ∧
      ∃ row, r.2.app.2.get? ⟨"daily"⟩ = some row ∧ row.state = .failed ∧
        row.result = some "no job registered for kind: weekly" := by
  have enrolled :=
    (registration_creates_or_adopts retrying.toSite weekly none opened MemoryLedger.filed_empty).1
  obtain ⟨herror, hrow, -⟩ := enrolled.refused rfl rfl (.noHandler "weekly") rfl
  exact ⟨herror, hrow⟩

end Plant

end JobEngine
