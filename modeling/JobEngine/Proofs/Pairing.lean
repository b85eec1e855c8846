import JobEngine.Proofs.AttemptMarks
import JobEngine.Proofs.Units
/-! What the listeners of a fire are told. Each one keeps a record of its calls; a run is announced
to all who are matched to its key, and reported to all of them afterwards. But the search for a veto
ends at the first one, and those who let the fire pass before are not told what became of it. -/

namespace JobEngine

variable {σ η ν α β : Type}

namespace MemoryLedger

def Runs (l : MemoryLedger) (key : JobKey) (attempt : Nat) : Prop :=
  ∃ row ∈ l.get? key, row.state = .running ∧ row.attempts = attempt

instance (l : MemoryLedger) (key : JobKey) (attempt : Nat) : Decidable (l.Runs key attempt) :=
  inferInstanceAs (Decidable (∃ row ∈ l.get? key, row.state = .running ∧ row.attempts = attempt))

theorem Marking.runs {l l' : MemoryLedger} {key : JobKey} {attempt : Nat} {row : JobStatus}
    (marking : Marking l key attempt l') (hrow : l.get? key = some row) : l'.Runs key attempt := by
  cases marking with
  | unknown hnone => cases hnone.symm.trans hrow
  | @marked row moved now hrow' hmoved =>
    obtain ⟨-, hstate, -, hattempts, -⟩ := MemoryLedger.apply_ok hmoved
    exact ⟨moved, Assoc.get?_put_self l.rows _ moved, hstate, hattempts⟩

end MemoryLedger

open MemoryLedger (Marking)

inductive Notice (ν : Type) where
  | asked (n : ν) (fire : FireContext) (verdict : Verdict)
  | told (n : ν) (fire : FireContext) (result : Except DispatchError Unit)

namespace Notice

def passed? : Notice ν → Option ν
  | .asked n _ .proceed => some n
  | _ => none

def told? : Notice ν → Option ν
  | .told n _ _ => some n
  | _ => none

/-- Each listener was told as often as it let a fire pass. -/
def Paired (notices : List (Notice ν)) : Prop :=
  (notices.filterMap told?).Perm (notices.filterMap passed?)

end Notice

def JobListener.audited (l : JobListener σ) (record : Part σ (List (Notice ν))) (n : ν) :
    JobListener σ where
  before fire := do
    let verdict ← l.before fire
    record.modify (· ++ [.asked n fire verdict])
    return verdict
  after fire result := do
    l.after fire result
    record.modify (· ++ [.told n fire result])

def Engine.audited (e : Engine σ η ν) (record : Part σ (List (Notice ν))) : Engine σ η ν :=
  { e with listener := fun n => (e.listener n).audited record n }

inductive Asked (listeners : List ν) (fire : FireContext) : Bool → List (Notice ν) → Prop where
  | passed : Asked listeners fire false (listeners.map (.asked · fire .proceed))
  | vetoed {front back : List ν} {n : ν} (split : listeners = front ++ n :: back) :
      Asked listeners fire true (front.map (.asked · fire .proceed) ++ [.asked n fire .veto])

theorem Asked.cons {listeners : List ν} {n : ν} {fire : FireContext} {vetoed : Bool}
    {notices : List (Notice ν)} (rest : Asked listeners fire vetoed notices) :
    Asked (n :: listeners) fire vetoed (.asked n fire .proceed :: notices) := by
  cases rest with
  | passed => exact .passed
  | @vetoed front back m split =>
    have hsplit : n :: listeners = (n :: front) ++ m :: back := congrArg (n :: ·) split
    exact .vetoed hsplit

/-- What listeners are told of a fire, by how it ends. -/
inductive Heard (listeners : List ν) (fire : FireContext) :
    FireOutcome → List (Notice ν) → Prop where
  | noHandler : Heard listeners fire .noHandler []
  | vetoed {notices : List (Notice ν)} (asked : Asked listeners fire true notices) :
      Heard listeners fire .vetoed notices
  | dispatched (result : Except DispatchError Unit) :
      Heard listeners fire (.dispatched result)
        (listeners.map (.asked · fire .proceed) ++ listeners.map (.told · fire result))

section

variable {listeners front : List ν} {fire : FireContext} {outcome : FireOutcome}
variable {notices : List (Notice ν)} {result : Except DispatchError Unit}

@[simp] theorem Notice.passed?_asked :
    (front.map (Notice.asked · fire .proceed)).filterMap Notice.passed? = front := by
  rw [List.filterMap_map]
  exact List.filterMap_some

@[simp] theorem Notice.told?_asked :
    (front.map (Notice.asked · fire .proceed)).filterMap Notice.told? = [] := by
  simp [List.filterMap_eq_nil_iff, told?]

@[simp] theorem Notice.passed?_told :
    (front.map (Notice.told · fire result)).filterMap Notice.passed? = [] := by
  simp [List.filterMap_eq_nil_iff, passed?]

@[simp] theorem Notice.told?_told :
    (front.map (Notice.told · fire result)).filterMap Notice.told? = front := by
  rw [List.filterMap_map]
  exact List.filterMap_some

/-- Nobody is told of a vetoed fire, so the calls are paired as long as the first who is asked
vetoes it. -/
theorem Heard.paired_iff (h : Heard listeners fire outcome notices) :
    Notice.Paired notices ↔ ¬(outcome = .vetoed ∧ ∃ n, .asked n fire .proceed ∈ notices) := by
  cases h with
  | noHandler => simp [Notice.Paired]
  | @vetoed notices asked =>
    cases asked with
    | @vetoed front back n split =>
      have hpassed : (front.map (Notice.asked · fire .proceed) ++
          [Notice.asked n fire .veto]).filterMap Notice.passed? = front := by
        rw [List.filterMap_append, Notice.passed?_asked]
        exact List.append_nil front
      have htold : (front.map (Notice.asked · fire .proceed) ++
          [Notice.asked n fire .veto]).filterMap Notice.told? = [] := by
        rw [List.filterMap_append, Notice.told?_asked]
        rfl
      unfold Notice.Paired
      rw [hpassed, htold, List.nil_perm]
      simp [List.eq_nil_iff_forall_not_mem]
  | dispatched result =>
    have hpaired : Notice.Paired (listeners.map (Notice.asked · fire .proceed) ++
        listeners.map (Notice.told · fire result)) := by
      unfold Notice.Paired
      rw [List.filterMap_append, List.filterMap_append, Notice.passed?_asked, Notice.told?_asked,
        Notice.passed?_told, Notice.told?_told, List.append_nil, List.nil_append]
    exact iff_of_true hpaired fun h => nomatch h.1

end

namespace Plant

variable {p : Plant σ η ν} {record : Part σ (List (Notice ν))}

/-- The record stands beside the plant: nobody else writes to it, and to write to it does nothing to
the scheduler and the ledger. -/
structure Beside (p : Plant σ η ν) (record : Part σ (List (Notice ν))) : Prop where
  record_put : ∀ x a, record.get (record.put x a) = x
  scheduler_put : ∀ x a, p.scheduler.get (record.put x a) = p.scheduler.get a
  ledger_put : ∀ x a, p.ledger.get (record.put x a) = p.ledger.get a
  record_put_scheduler : ∀ s a, record.get (p.scheduler.put s a) = record.get a
  before : ∀ n fire, record.Spares ((p.listener n).before fire)
  after : ∀ n fire result, record.Spares ((p.listener n).after fire result)
  runs : ∀ handler fire, record.Spares (p.harness.run (p.job handler) fire)

/-- No listener but the one that keeps the ledger writes to it before a fire. -/
def Quiet (p : Plant σ η ν) : Prop :=
  ∀ n, n ≠ p.status → ∀ fire, p.ledger.Spares ((p.listener n).before fire)

/-- What the listeners who were asked have made of the ledger: the row of the job runs, if there is
one, once the status listener has let the fire pass, and otherwise nothing has changed. -/
structure Marks (p : Plant σ η ν) (fire : FireContext) (notices : List (Notice ν))
    (l l' : MemoryLedger) : Prop where
  untouched : Notice.asked p.status fire .proceed ∉ notices → l' = l
  running : Notice.asked p.status fire .proceed ∈ notices → ∀ row, l.get? fire.key = some row →
    l'.Runs fire.key fire.refireCount

namespace Marks

variable {fire : FireContext} {notices more : List (Notice ν)} {l l₁ l' : MemoryLedger}

theorem nothing : p.Marks fire [] l l := ⟨fun _ => rfl, fun h => absurd h List.not_mem_nil⟩

theorem of_status (marking : Marking l fire.key fire.refireCount l') :
    p.Marks fire [.asked p.status fire .proceed] l l' :=
  ⟨fun h => absurd List.mem_cons_self h, fun _ _ hrow => marking.runs hrow⟩

private theorem of_ne {n : ν} {verdict : Verdict}
    (hother : (n, verdict) ≠ (p.status, Verdict.proceed)) :
    p.Marks fire [.asked n fire verdict] l l := by
  refine ⟨fun _ => rfl, fun h => ?_⟩
  cases List.mem_singleton.mp h
  exact absurd rfl hother

theorem append (first : p.Marks fire notices l l₁) (second : p.Marks fire more l₁ l') :
    p.Marks fire (notices ++ more) l l' where
  untouched h := by
    rw [List.mem_append, not_or] at h
    rw [second.untouched h.2, first.untouched h.1]
  running h row hrow := by
    by_cases hfirst : Notice.asked p.status fire .proceed ∈ notices
    · obtain ⟨row₁, hrow₁, hruns⟩ := first.running hfirst row hrow
      by_cases hagain : Notice.asked p.status fire .proceed ∈ more
      · exact second.running hagain row₁ hrow₁
      · rw [second.untouched hagain]
        exact ⟨row₁, hrow₁, hruns⟩
    · rw [first.untouched hfirst] at second
      exact second.running ((List.mem_append.mp h).resolve_left hfirst) row hrow

end Marks

/-- Between the two hosts these notices were given, and the ledger was marked accordingly. -/
structure Tells (p : Plant σ η ν) (record : Part σ (List (Notice ν))) (fire : FireContext)
    (notices : List (Notice ν)) (h h' : Host σ) : Prop where
  recorded : record.get h'.app = record.get h.app ++ notices
  marks : p.Quiet → p.Marks fire notices (p.ledger.get h.app) (p.ledger.get h'.app)

def Announces (p : Plant σ η ν) (record : Part σ (List (Notice ν))) (fire : FireContext)
    (a : Act σ α) (Q : α → List (Notice ν) → Prop) : Prop :=
  ∀ h, ∃ notices, p.Tells record fire notices h (a h).2 ∧ Q (a h).1 notices

namespace Announces

variable {fire : FireContext} {a : Act σ α} {f : α → Act σ β}
variable {Q : α → List (Notice ν) → Prop} {R : β → List (Notice ν) → Prop}

theorem still (h : ∀ h, (a h).2.app = h.app) (hQ : ∀ x, Q x []) : p.Announces record fire a Q :=
  fun host => by
    refine ⟨[], ⟨?_, fun _ => ?_⟩, hQ _⟩
    · rw [h, List.append_nil]
    · rw [h]
      exact .nothing

theorem pure {x : α} (hQ : Q x []) : p.Announces record fire (pure x) Q := fun _ =>
  ⟨[], ⟨(List.append_nil _).symm, fun _ => .nothing⟩, hQ⟩

theorem bind (ha : p.Announces record fire a Q)
    (hf : ∀ x notices, Q x notices →
      p.Announces record fire (f x) fun y more => R y (notices ++ more)) :
    p.Announces record fire (a >>= f) R := fun h => by
  obtain ⟨notices, first, hQ⟩ := ha h
  obtain ⟨more, second, hR⟩ := hf _ _ hQ (a h).2
  refine ⟨notices ++ more, ⟨?_, fun quiet => ?_⟩, hR⟩
  · rw [← List.append_assoc, ← first.recorded]
    exact second.recorded
  · exact (first.marks quiet).append (second.marks quiet)

theorem after (ha : ∀ h, (a h).2.app = h.app) (hf : ∀ x, p.Announces record fire (f x) R) :
    p.Announces record fire (a >>= f) R :=
  (still (Q := fun _ notices => notices = []) ha fun _ => rfl).bind fun x _ hnothing =>
    hnothing ▸ hf x

end Announces

theorem before_marks (quiet : p.Quiet) (n : ν) (fire : FireContext) (h : Host σ) :
    let r := (p.listener n).before fire h
    r.1 = .veto ∧ p.ledger.get r.2.app = p.ledger.get h.app ∨
      r.1 = .proceed ∧ (n ≠ p.status ∧ p.ledger.get r.2.app = p.ledger.get h.app ∨
        n = p.status ∧ Marking (p.ledger.get h.app) fire.key fire.refireCount
          (p.ledger.get r.2.app)) := by
  by_cases hn : n = p.status
  · rw [hn, p.keepsBook]
    obtain ⟨-, hveto | hproceed⟩ :=
      before_effect (R := fun _ => True) p.toSite fire _ h ⟨trivial, rfl⟩
    · exact .inl hveto
    · exact .inr ⟨hproceed.1, .inr ⟨rfl, hproceed.2⟩⟩
  · have hledger := quiet n hn fire h
    cases hverdict : ((p.listener n).before fire h).1 with
    | veto => exact .inl ⟨hverdict, hledger⟩
    | proceed => exact .inr ⟨hverdict, .inl ⟨hn, hledger⟩⟩

section

variable (beside : p.Beside record)

include beside

private theorem audited_before (n : ν) (fire : FireContext) (h : Host σ) :
    let r := (p.listener n).before fire h
    let r' := ((p.engine.audited record).listener n).before fire h
    r'.1 = r.1 ∧ record.get r'.2.app = record.get h.app ++ [.asked n fire r.1] ∧
      p.ledger.get r'.2.app = p.ledger.get r.2.app := by
  intro r r'
  refine ⟨rfl, ?_, beside.ledger_put _ _⟩
  change record.get (record.put (record.get r.2.app ++ [.asked n fire r.1]) _) = _
  rw [beside.record_put]
  exact congrArg (· ++ _) (beside.before n fire h)

private theorem audited_after (n : ν) (fire : FireContext) (result : Except DispatchError Unit)
    (h : Host σ) :
    record.get (((p.engine.audited record).listener n).after fire result h).2.app =
      record.get h.app ++ [.told n fire result] := by
  change record.get (record.put (record.get ((p.listener n).after fire result h).2.app ++ _) _) = _
  rw [beside.record_put, beside.after]

theorem tellAll_heard (fire : FireContext) (result : Except DispatchError Unit)
    (listeners : Assoc String ν) (h : Host σ) :
    record.get ((p.engine.audited record).tellAll fire result listeners h).2.app =
      record.get h.app ++ (listeners.map (·.2)).map (.told · fire result) := by
  induction listeners generalizing h with
  | nil => exact (List.append_nil _).symm
  | cons entry rest ih =>
    change record.get ((p.engine.audited record).tellAll fire result rest
      (((p.engine.audited record).listener entry.2).after fire result h).2).2.app = _
    rw [ih, audited_after beside, List.append_assoc]
    rfl

theorem before_announced (n : ν) (fire : FireContext) :
    p.Announces record fire (((p.engine.audited record).listener n).before fire)
      fun verdict notices => notices = [.asked n fire verdict] := fun h => by
  obtain ⟨hverdict, hrecord, hledger⟩ := audited_before beside n fire h
  refine ⟨_, ⟨hrecord, fun quiet => ?_⟩, by rw [hverdict]⟩
  rw [hledger]
  obtain ⟨hveto, hsame⟩ | ⟨hproceed, ⟨hn, hsame⟩ | ⟨rfl, hmarking⟩⟩ := before_marks quiet n fire h
  · rw [hsame, hveto]
    exact .of_ne fun h => nomatch congrArg Prod.snd h
  · rw [hsame]
    exact .of_ne fun h => hn (congrArg Prod.fst h)
  · rw [hproceed]
    exact .of_status hmarking

theorem firstVeto_heard (fire : FireContext) (listeners : Assoc String ν) :
    p.Announces record fire ((p.engine.audited record).firstVeto fire listeners)
      fun veto notices => Asked (listeners.map (·.2)) fire veto.isSome notices := by
  induction listeners with
  | nil => exact .pure .passed
  | cons entry rest ih =>
    refine (before_announced beside entry.2 fire).bind fun verdict notices hnotices => ?_
    rw [hnotices]
    cases verdict with
    | veto => exact .pure (.vetoed (List.nil_append _).symm)
    | proceed => exact fun h => (ih h).imp fun _ hrest => ⟨hrest.1, hrest.2.cons⟩

theorem permit_heard (fire : FireContext) (listeners : Assoc String ν) :
    p.Announces record fire ((p.engine.audited record).permit fire listeners) fun r notices =>
      match r with
      | .error outcome => Heard (listeners.map (·.2)) fire outcome notices
      | .ok _ => Asked (listeners.map (·.2)) fire false notices := by
  refine .after (fun _ => rfl) fun handler => ?_
  cases handler with
  | none => exact .after (fun _ => rfl) fun _ => .pure .noHandler
  | some handler =>
    refine (firstVeto_heard beside fire listeners).bind fun veto notices hasked => ?_
    cases veto with
    | none => exact .pure (by rwa [List.append_nil])
    | some name =>
      refine .after (fun _ => rfl) fun _ => .pure ?_
      rw [List.append_nil]
      exact .vetoed hasked

/-- A fire that is taken is announced to those who are matched to its key. -/
theorem launch_heard {h : Host σ} {taken : TakenFire ν} {s : Scheduler η ν}
    (htake : (p.scheduler.get h.app).take (Act.now h).1 = (some taken, s)) :
    let r := (p.engine.audited record).launch h
    ∃ fire notices, fire.definition = taken.job.definition ∧
      fire.refireCount = taken.fire.refireCount ∧ p.Tells record fire notices h r.2 ∧
      ((∃ outcome, r.1 = .grounded taken outcome ∧
          Heard (taken.listeners.map (·.2)) fire outcome notices) ∨
        ∃ handler, r.1 = .airborne { taken, context := fire, handler } ∧
          Asked (taken.listeners.map (·.2)) fire false notices) := by
  have hscheduler : (p.engine.audited record).scheduler.get (Act.now h).2.app =
    p.scheduler.get h.app := rfl
  unfold Engine.launch Engine.launchBy
  rw [Engine.bind_run, Engine.run_bind, hscheduler, htake]
  simp only
  rw [Engine.bind_run]
  generalize hcreated : FireContext.create taken.job.definition taken.fire.triggerData
    taken.fire.refireCount _ = created
  obtain ⟨fire, host⟩ := created
  have hrecord : record.get host.app = record.get h.app := by
    cases hcreated
    exact beside.record_put_scheduler s h.app
  have hledger : p.ledger.get host.app = p.ledger.get h.app := by
    cases hcreated
    exact p.ledger_put_scheduler s h.app
  have hdefinition : fire.definition = taken.job.definition := by
    cases hcreated
    rfl
  have hattempt : fire.refireCount = taken.fire.refireCount := by
    cases hcreated
    rfl
  rw [Engine.bind_run]
  obtain ⟨notices, ⟨hrecorded, hmarks⟩, hheard⟩ := permit_heard beside
    { fire with scheduledFor := taken.fire.scheduledFor } taken.listeners host
  rw [hrecord] at hrecorded
  rw [hledger] at hmarks
  refine ⟨{ fire with scheduledFor := taken.fire.scheduledFor }, notices, hdefinition, hattempt, ?_⟩
  generalize (p.engine.audited record).permit { fire with scheduledFor := taken.fire.scheduledFor }
    taken.listeners host = permitted at hrecorded hmarks hheard ⊢
  obtain ⟨r, last⟩ := permitted
  cases r with
  | error outcome => exact ⟨⟨hrecorded, hmarks⟩, .inl ⟨outcome, rfl, hheard⟩⟩
  | ok handler => exact ⟨⟨hrecorded, hmarks⟩, .inr ⟨handler, rfl, hheard⟩⟩

omit beside in
theorem settle_spares {τ : Type} {part : Part σ τ}
    (hput : ∀ s a, part.get (p.scheduler.put s a) = part.get a) (taken : TakenFire ν)
    (outcome : FireOutcome) : part.Spares ((p.engine.audited record).settle taken outcome) :=
  part.spares_composes.settleFire fun _ _ => hput _ _

private theorem land_heard (flight : Flight η ν) (result : Except DispatchError Unit) (h : Host σ) :
    record.get ((p.engine.audited record).land flight result h).2.app = record.get h.app ++
      (flight.taken.listeners.map (·.2)).map (.told · flight.context result) := by
  unfold Engine.land
  rw [Engine.bind_run, settle_spares beside.record_put_scheduler]
  exact tellAll_heard beside flight.context result flight.taken.listeners h

/-- Listener calls are paired as long as nobody vetoes a fire that others have let pass. Those who
are matched to its key are asked in order, up to the first that vetoes, and if none does, all of
them are told how the run ended before the try is over. Nobody is told how a vetoed fire ended, so a
row that the status listener marked for it stays marked. -/
theorem paired_unless_vetoed {h : Host σ} {taken : TakenFire ν} {s : Scheduler η ν}
    (htake : (p.scheduler.get h.app).take (Act.now h).1 = (some taken, s)) :
    let listeners := ((p.scheduler.get h.app).listenersFor taken.fire.key).map (·.2)
    let r := (p.engine.audited record).fireNext h
    ∃ fire outcome notices,
      fire.definition = taken.job.definition ∧ fire.refireCount = taken.fire.refireCount ∧
      (r.1 = .crashed ∨ r.1 =
        .fired { key := taken.fire.key, attempt := taken.fire.refireCount, outcome }) ∧
      record.get r.2.app = record.get h.app ++ notices ∧
      Heard listeners fire outcome notices ∧
      (Notice.Paired notices ↔ ¬(outcome = .vetoed ∧ ∃ n, .asked n fire .proceed ∈ notices)) ∧
      (outcome = .vetoed → p.Quiet →
        p.Marks fire notices (p.ledger.get h.app) (p.ledger.get r.2.app)) := by
  have hlisteners : taken.listeners = (p.scheduler.get h.app).listenersFor taken.fire.key := by
    obtain ⟨q, rest, job, -, -, -, htaken, -⟩ := Scheduler.take_some htake
    rw [htaken]
  obtain ⟨fire, notices, hdefinition, hattempt, htells, hlaunch⟩ := launch_heard beside htake
  rw [← hlisteners]
  unfold Engine.fireNext
  rw [Engine.bind_run]
  generalize (p.engine.audited record).launch h = launched at htells hlaunch
  obtain ⟨r, host⟩ := launched
  obtain ⟨outcome, rfl, hheard⟩ | ⟨handler, rfl, hasked⟩ := hlaunch
  · refine ⟨fire, outcome, notices, hdefinition, hattempt,
      Engine.settle_answer _ taken outcome host, ?_, hheard, hheard.paired_iff, fun _ quiet => ?_⟩
    · exact (settle_spares beside.record_put_scheduler taken outcome host).trans htells.recorded
    · have hmarks := htells.marks quiet
      rwa [← settle_spares p.ledger_put_scheduler taken outcome host] at hmarks
  · simp only
    rw [Engine.bind_run]
    have hruns : record.get ((p.engine.audited record).harness.run
        ((p.engine.audited record).job handler) fire host).2.app = record.get host.app :=
      beside.runs handler fire host
    generalize (p.engine.audited record).harness.run ((p.engine.audited record).job handler)
      fire host = run at hruns ⊢
    obtain ⟨result, host'⟩ := run
    have hland := land_heard beside { taken, context := fire, handler } result host'
    have hheard : Heard (taken.listeners.map (·.2)) fire (.dispatched result) _ :=
      .dispatched result
    refine ⟨fire, .dispatched result, _, hdefinition, hattempt, Engine.settle_answer _ _ _ _,
      ?_, hheard, hheard.paired_iff, nofun⟩
    cases hasked
    refine hland.trans ?_
    rw [hruns, htells.recorded, List.append_assoc]

end

def guarded : Plant (Scheduler Unit Bool × MemoryLedger × List (Notice Bool)) Unit Bool where
  scheduler := { get := Prod.fst, put := fun s a => (s, a.2) }
  ledger := { get := fun a => a.2.1, put := fun l a => (a.1, l, a.2.2) }
  scheduler_put _ _ := rfl
  ledger_put _ _ := rfl
  scheduler_put_ledger _ _ := rfl
  ledger_put_scheduler _ _ := rfl
  harness := { policy := .unlimited, bus := .ofPublish fun _ => pure (.ok ()) }
  job _ := { name := "report", body := fun _ => pure () }
  listener
    | true => StatusListener.listener
        (MemoryLedger.service { get := fun a => a.2.1, put := fun l a => (a.1, l, a.2.2) })
    | false => { before := fun _ => pure .veto, after := fun _ _ => pure () }
  status := true
  keepsBook := rfl

def calls :
    Part (Scheduler Unit Bool × MemoryLedger × List (Notice Bool)) (List (Notice Bool)) where
  get a := a.2.2
  put x a := (a.1, a.2.1, x)

def dueThere : Host (Scheduler Unit Bool × MemoryLedger × List (Notice Bool)) :=
  (Registration.scheduleJob guarded.book guarded.service report (some { schedule := .once .epoch })
    { clock := .epoch
      app := (
        { registry := [("report", ())]
          listeners := [(StatusListener.name, true), ("guard", false)]
          matchers := [("guard", [report.key])] }, {}, []) }).2

theorem calls_beside : guarded.Beside calls where
  record_put _ _ := rfl
  scheduler_put _ _ := rfl
  ledger_put _ _ := rfl
  record_put_scheduler _ _ := rfl
  before n fire := by
    have kind := calls.spares_composes
    cases n with
    | false => exact kind.pure _
    | true =>
      have hmark : calls.Spares (guarded.book.transition fire.key (.running fire.refireCount)) :=
        kind.bind kind.now fun _ _ => rfl
      refine kind.bind hmark fun r => ?_
      split
      · exact kind.pure _
      · exact kind.bind (kind.log _ _ _ _) fun _ => kind.pure _
      · exact kind.bind (kind.log _ _ _ _) fun _ => kind.pure _
  after n fire result := by
    have kind := calls.spares_composes
    cases n with
    | false => exact kind.pure _
    | true =>
      have hrecord : calls.Spares
          (guarded.book.transition fire.key (StatusListener.updateFor result)) :=
        kind.bind kind.now fun _ _ => rfl
      refine kind.bind hrecord fun r => ?_
      split
      · exact kind.log _ _ _ _
      · exact kind.pure _
  runs handler fire := by
    have kind := calls.spares_composes
    have made : guarded.harness.MadeOf calls.Spares (guarded.job handler) :=
      { enter := nofun, leave := nofun, begin := nofun, finish := nofun, abort := nofun
        publish := kind.oneByOne (fun _ => kind.pure _) 0
        body := fun _ => kind.pure _ }
    exact kind.run made fire

def vetoed : FireTry → Bool
  | .fired { outcome := .vetoed, .. } => true
  | _ => false

private theorem guard_vetoes : vetoed ((guarded.engine.audited calls).fireNext dueThere).1 := by
  decide +kernel

private theorem guarded_quiet : guarded.Quiet := fun n hn fire => by
  cases n with
  | false => exact fun _ => rfl
  | true => exact absurd rfl hn

/-- The guard vetoes a fire that the status listener has let pass: one call is made without its
counterpart, and the row runs. -/
theorem vetoed_row_runs : ∃ fire notices,
    let r := (guarded.engine.audited calls).fireNext dueThere
    calls.get r.2.app = calls.get dueThere.app ++ notices ∧
      Heard [true, false] fire .vetoed notices ∧
      guarded.Marks fire notices (guarded.ledger.get dueThere.app)
        (guarded.ledger.get r.2.app) := by
  obtain ⟨fire, outcome, notices, -, -, hanswer, hrecorded, hheard, -, hmarks⟩ :=
    paired_unless_vetoed calls_beside (h := dueThere) (Prod.ext rfl rfl)
  have hvetoed : outcome = .vetoed := by
    have hveto := guard_vetoes
    obtain hcrashed | hfired := hanswer
    · rw [hcrashed] at hveto
      cases hveto
    · rw [hfired] at hveto
      cases outcome with
      | vetoed => rfl
      | dispatched result => cases hveto
      | noHandler => cases hveto
  subst hvetoed
  exact ⟨fire, notices, hrecorded, hheard, hmarks rfl guarded_quiet⟩

/-- So the calls are not paired, although the fire is over. -/
theorem unpaired_after_veto :
    let r := (guarded.engine.audited calls).fireNext dueThere
    vetoed r.1 ∧ ¬Notice.Paired (calls.get r.2.app) ∧
      (guarded.ledger.get r.2.app).Runs report.key 0 := by
  refine ⟨guard_vetoes, fun hpaired => ?_, by decide +kernel⟩
  have hlength := hpaired.length_eq
  revert hlength
  decide +kernel

end Plant

end JobEngine
