import JobEngine.Proofs.Enrolment
/-! What a submission that fails leaves behind. A job that had no row has none, or one that says why
the scheduler refused it. A job that had a row keeps it as long as the scheduler has the job too; a
scheduler that knows nothing of the job makes its row a failed one. -/

namespace JobEngine

/-- How a submission ends, with the scheduler and the ledger as they are then. -/
inductive Submitted {η ν : Type} (definition : JobDefinition) (s : Scheduler η ν)
    (l : MemoryLedger) :
    Except RegistrationError JobStatus → Scheduler η ν → MemoryLedger → Prop where
  | declined : Submitted definition s l (.error (.notSchedulable definition.key)) s l
  | unregistered {e : RegistrationError} {s' : Scheduler η ν} {l' : MemoryLedger}
      (hregistered : Registered definition none s l (.error e) s' l') :
      Submitted definition s l (.error e) s' l'
  | fired {status : JobStatus} {stored s' : Scheduler η ν} {l' : MemoryLedger}
      (hregistered : Registered definition none s l (.ok status) stored l')
      (hstored : stored.contains definition.key) : Submitted definition s l (.ok status) s' l'
  | forgotten {status : JobStatus} {s' : Scheduler η ν} {kept l' : MemoryLedger}
      {answer : Except LedgerError JobStatus}
      (hregistered : Registered definition none s l (.ok status) s' kept)
      (hmissing : s'.contains definition.key = false)
      (hfailed : kept.Answers definition.key
        (.failed (SchedulerError.jobNotFound definition.key).message) answer l') :
      Submitted definition s l (.error (.scheduler definition.key (.jobNotFound definition.key)))
        s' l'

namespace Site.Triple

variable {σ η ν : Type} {site : Site σ η ν} {s : Scheduler η ν} {l : MemoryLedger} {key : JobKey}

theorem fires {data : TriggerData} : site.Triple (Are s l) (site.service.triggerNow key data)
    fun r s' l' => l' = l ∧ (s.contains key ∧ r = .ok () ∨
      s.contains key = false ∧ s' = s ∧ r = .error (.jobNotFound key)) := by
  refine now.after fun time => ?_
  have hattempt : site.Triple (Are s l)
      (Scheduler.attempt site.scheduler (·.triggerNow key data time)) fun r s' l' =>
        l' = l ∧ (s.contains key ∧ r = .ok () ∨
          s.contains key = false ∧ s' = s ∧ r = .error (.jobNotFound key)) := by
    refine attempt ?_ ?_
    · rintro _ s' _ ⟨rfl, rfl⟩ hok
      exact ⟨rfl, .inl ⟨(Scheduler.triggerNow_ok hok).1, rfl⟩⟩
    · rintro s _ e ⟨rfl, rfl⟩ herror
      unfold Scheduler.triggerNow at herror
      split at herror
      · cases herror
      next hmissing =>
        cases herror
        exact ⟨rfl, .inr ⟨Bool.eq_false_iff.mpr hmissing, rfl, rfl⟩⟩
  exact hattempt

/-- A submission ends in one of these ways when the check of the job only looks. -/
theorem submits (job : Job σ) (definition : JobDefinition)
    (hcheck : ∀ row, site.Apart (job.isSchedulable site.book row)) :
    site.Triple (Are s l) (Registration.submitNow site.book site.service job definition)
      (Submitted definition s l) := by
  refine after (still (JobStatus.register_app definition false)) fun candidate => ?_
  refine after (hcheck candidate).keeps fun schedulable => ?_
  cases schedulable with
  | false =>
    refine (log _ _ _ _).after fun _ => pure ?_
    rintro _ _ ⟨rfl, rfl⟩
    exact .declined
  | true =>
    refine (registers definition none).bind fun r => ?_
    cases r with
    | error e => exact pure fun _ _ h => .unregistered h
    | ok status =>
      apply naming
      intro stored kept hregistered
      refine fires.bind fun r => ?_
      cases r with
      | ok x =>
        refine pure ?_
        rintro s' l' ⟨rfl, ⟨hstored, -⟩ | ⟨-, -, hno⟩⟩
        · exact .fired hregistered hstored
        · cases hno
      | error e =>
        apply naming
        rintro s' l' ⟨rfl, ⟨-, hno⟩ | ⟨hmissing, rfl, he⟩⟩
        · cases hno
        cases he
        refine (fails (.jobNotFound definition.key)).bind fun _ => pure ?_
        rintro _ _ ⟨rfl, answer, hfailed⟩
        exact .forgotten hregistered hmissing hfailed

end Site.Triple

namespace MemoryLedger

theorem Answers.of_failed {l l' : MemoryLedger} {key : JobKey} {row : JobStatus}
    {text : String} {answer : Except LedgerError JobStatus}
    (h : l.Answers key (.failed text) answer l') (hrow : l.get? key = some row) :
    row.state = .cancelled ∧ l' = l ∨ row.state ≠ .cancelled ∧
      ∃ row', l'.get? key = some row' ∧ row'.state = .failed ∧ row'.result = some text := by
  cases h with
  | missing hnone => cases hrow.symm.trans hnone
  | refused hrow' hstate =>
    cases hrow.symm.trans hrow'
    obtain hcancelled | hcreated | ⟨-, hfinished⟩ := JobState.of_not_canMoveTo hstate
    · exact .inl ⟨hcancelled, rfl⟩
    · cases hcreated
    · cases hfinished
  | @moved _ moved now hrow' hmoved =>
    cases hrow.symm.trans hrow'
    have hother : row.state ≠ .cancelled := by
      intro hcancelled
      cases hmoved.symm.trans (apply_cancelled hcancelled _)
    obtain ⟨-, hstate, hresult, -⟩ := apply_ok hmoved
    exact .inr ⟨hother, moved, Assoc.get?_put_self l.rows key moved, hstate, hresult⟩

end MemoryLedger

section

variable {η ν : Type} {definition : JobDefinition} {trigger : Option Trigger} {s s' : Scheduler η ν}
variable {l l' : MemoryLedger} {row status : JobStatus}

theorem Registered.keeps (h : Registered definition trigger s l (.ok status) s' l')
    (hrow : l.get? definition.key = some row) (hid : row.id = definition.key) :
    (∃ kept, l'.get? definition.key = some kept ∧ kept.progress = row.progress) ∧
      s'.contains definition.key = s.contains definition.key := by
  cases hheard : s.listeners.has StatusListener.name with
  | false => cases (h.of_unheard hheard).1
  | true =>
    obtain ⟨kept, -, hkept, hsame, -, -, hjobs, -⟩ := h.of_row hheard hrow hid
    constructor
    · refine ⟨kept, hkept, ?_⟩
      rw [hsame]
      rfl
    · unfold Scheduler.contains
      rw [hjobs]

theorem Registered.contains (h : Registered definition trigger s l (.ok status) s' l')
    (hnone : l.get? definition.key = none) : s'.contains definition.key := by
  cases h with
  | adopted _ _ hrow => cases hnone.symm.trans hrow
  | @created matched =>
    unfold Scheduler.contains Assoc.has
    rw [Scheduler.jobs_accept, if_pos rfl]
    rfl

end

/-- What a submission that failed leaves behind, by what there was before. The row of a job that the
scheduler has keeps its progress, and so does a cancelled one. Any other is a failed row when the
submission gets as far as the scheduler, which does not know the job. -/
structure FailedSubmission {η ν : Type} (definition : JobDefinition) (s : Scheduler η ν)
    (l : MemoryLedger) (e : RegistrationError) (l' : MemoryLedger) : Prop where
  kept : ∀ row, l.get? definition.key = some row →
    s.contains definition.key ∨ row.state = .cancelled →
      ∃ row', l'.get? definition.key = some row' ∧ row'.progress = row.progress
  forgotten : ∀ row, l.get? definition.key = some row →
    s.contains definition.key = false → row.state ≠ .cancelled →
      (e = .notSchedulable definition.key ∨
        e = .scheduler definition.key (.unknownListener StatusListener.name)) ∧
          l'.get? definition.key = some row ∨
      e = .scheduler definition.key (.jobNotFound definition.key) ∧
        ∃ row', l'.get? definition.key = some row' ∧ row'.state = .failed ∧
          row'.result = some (SchedulerError.jobNotFound definition.key).message
  fresh : l.get? definition.key = none →
    (e = .notSchedulable definition.key ∨
      e = .scheduler definition.key (.unknownListener StatusListener.name)) ∧
        l'.get? definition.key = none ∨
    ∃ cause row, e = .scheduler definition.key cause ∧ l'.get? definition.key = some row ∧
      row.state = .failed ∧ row.result = some cause.message

namespace Submitted

variable {η ν : Type} {definition : JobDefinition} {s s' : Scheduler η ν} {l l' : MemoryLedger}
variable {e : RegistrationError} {row : JobStatus}

theorem of_row (h : Submitted definition s l (.error e) s' l')
    (hrow : l.get? definition.key = some row) (hid : row.id = definition.key) :
    (e = .notSchedulable definition.key ∨
      e = .scheduler definition.key (.unknownListener StatusListener.name)) ∧
        l'.get? definition.key = some row ∨
    s.contains definition.key = false ∧
      e = .scheduler definition.key (.jobNotFound definition.key) ∧
      (row.state = .cancelled ∧
          (∃ row', l'.get? definition.key = some row' ∧ row'.progress = row.progress) ∨
        row.state ≠ .cancelled ∧
          ∃ row', l'.get? definition.key = some row' ∧ row'.state = .failed ∧
            row'.result = some (SchedulerError.jobNotFound definition.key).message) := by
  cases h with
  | declined => exact .inl ⟨.inl rfl, hrow⟩
  | unregistered hregistered =>
    cases hregistered with
    | unheard => exact .inl ⟨.inr rfl, hrow⟩
    | refused _ _ _ _ hnone => cases hnone.symm.trans hrow
  | forgotten hregistered hmissing hfailed =>
    obtain ⟨⟨kept, hkept, hsame⟩, hcontains⟩ := hregistered.keeps hrow hid
    refine .inr ⟨hcontains ▸ hmissing, rfl, ?_⟩
    have hstate : kept.state = row.state := congrArg Progress.state hsame
    obtain ⟨hcancelled, rfl⟩ | ⟨hother, hmarked⟩ := hfailed.of_failed hkept
    · exact .inl ⟨hstate ▸ hcancelled, kept, hkept, hsame⟩
    · exact .inr ⟨hstate ▸ hother, hmarked⟩

theorem of_fresh (h : Submitted definition s l (.error e) s' l')
    (hnone : l.get? definition.key = none) :
    (e = .notSchedulable definition.key ∨
      e = .scheduler definition.key (.unknownListener StatusListener.name)) ∧
        l'.get? definition.key = none ∨
    ∃ cause row, e = .scheduler definition.key cause ∧ l'.get? definition.key = some row ∧
      row.state = .failed ∧ row.result = some cause.message := by
  cases h with
  | declined => exact .inl ⟨.inl rfl, hnone⟩
  | forgotten hregistered hmissing => cases hmissing.symm.trans (hregistered.contains hnone)
  | unregistered hregistered =>
    cases hregistered with
    | unheard => exact .inl ⟨.inr rfl, hnone⟩
    | refused now cause _ _ _ _ hfailed =>
      obtain ⟨row, hid, hstate, hresult, rfl⟩ := Registered.failed_row hfailed
      exact .inr ⟨cause, row, rfl, MemoryLedger.get?_put_own _ hid, hstate, hresult⟩

end Submitted

theorem failed_submission_effect {σ η ν : Type} (site : Site σ η ν) (job : Job σ)
    (hcheck : ∀ row, site.Apart (job.isSchedulable site.book row)) (definition : JobDefinition)
    (h : Host σ) (filed : (site.ledger.get h.app).Filed) {e : RegistrationError}
    (herror : (Registration.submitNow site.book site.service job definition h).1 = .error e) :
    FailedSubmission definition (site.scheduler.get h.app) (site.ledger.get h.app) e
      (site.ledger.get
        (Registration.submitNow site.book site.service job definition h).2.app) := by
  have submitted : Submitted definition (site.scheduler.get h.app) (site.ledger.get h.app)
      (Registration.submitNow site.book site.service job definition h).1
      (site.scheduler.get (Registration.submitNow site.book site.service job definition h).2.app)
      (site.ledger.get (Registration.submitNow site.book site.service job definition h).2.app) :=
    Site.Triple.submits job definition hcheck h ⟨rfl, rfl⟩
  rw [herror] at submitted
  constructor
  · intro row hrow hkeeps
    obtain ⟨-, hkept⟩ | ⟨hmissing, -, ⟨-, hkept⟩ | ⟨hother, -⟩⟩ :=
      submitted.of_row hrow (filed _ _ hrow)
    · exact ⟨row, hkept, rfl⟩
    · exact hkept
    · obtain hstored | hcancelled := hkeeps
      · cases hmissing.symm.trans hstored
      · exact absurd hcancelled hother
  · intro row hrow _ hother
    obtain hkept | ⟨-, he, ⟨hcancelled, -⟩ | ⟨-, hmarked⟩⟩ :=
      submitted.of_row hrow (filed _ _ hrow)
    · exact .inl hkept
    · exact absurd hcancelled hother
    · exact .inr ⟨he, hmarked⟩
  · exact submitted.of_fresh

namespace Plant

def restarted : Host (Scheduler Unit Unit × MemoryLedger) :=
  let row : JobStatus :=
    { JobStatus.initial report false .epoch with
      state := .finished
      startedAt := some (Instant.epoch : Stamp)
      finishedAt := some (Instant.epoch : Stamp) }
  { opened with app := (opened.app.1, opened.app.2.put row) }

theorem restarted_job_marked_failed :
    let r := Registration.submitNow retrying.book retrying.service (retrying.job ()) report
      restarted
    ∃ row, r.2.app.2.get? report.key = some row ∧ row.state = .failed ∧
      row.result = some "job not found: daily" := by
  have filed : (retrying.ledger.get restarted.app).Filed := MemoryLedger.filed_empty.put _
  have effect := failed_submission_effect retrying.toSite (retrying.job ()) (fun _ _ => ⟨rfl, rfl⟩)
    report restarted filed rfl
  obtain ⟨herror | herror, -⟩ | ⟨-, hmarked⟩ := effect.forgotten _ rfl rfl (by decide)
  · cases herror
  · cases herror
  · exact hmarked

/-- A submission that fails may well touch the row that the job has. -/
theorem failed_submission_touches_row :
    ¬∀ (h : Host (Scheduler Unit Unit × MemoryLedger)) (definition : JobDefinition)
      (e : RegistrationError) (row : JobStatus),
      let r := Registration.submitNow retrying.book retrying.service (retrying.job ()) definition h
      r.1 = .error e → h.app.2.get? definition.key = some row →
        (r.2.app.2.get? definition.key).map JobStatus.progress = some row.progress := by
  intro claim
  have untouched := claim restarted report _ _ rfl rfl
  revert untouched
  decide

end Plant

end JobEngine
