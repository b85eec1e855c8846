import JobEngine.Database.Pool
import JobEngine.Proofs.Answer
import JobEngine.Proofs.OpenTransactions
import JobEngine.Proofs.Units
import Mathlib.Logic.Relation
/-! A run that fails leaves nothing in the database. As long as the unit of work around a body is
open, what the body writes through the stores waits in its transaction; a failed run discards it, or
leaves it to whoever opened it. Other threads may write in the meantime, and what they commit is the
only change that anyone sees. -/

namespace JobEngine

open Relation (ReflTransGen)

variable {σ α β ε : Type}

/-- The session of a unit of work between two calls of its thread, as long as the transaction was
not given up. -/
structure Session.Live (s : Session) : Prop where
  depth : s.depth = 1
  sheltered : s.Sheltered

theorem Session.Live.stands {s : Session} (h : s.Live) (d : Database) (time : Instant) :
    ({ database := d, session := s, time } : Connection).Stands 1 (some d.tables) := by
  refine ⟨h.depth, fun tables ht => ?_⟩
  cases ht
  exact ⟨h.sheltered, rfl⟩

theorem Connection.begin_live {d : Database} {time : Instant}
    (hbegin : (fresh d time).begin.1 = .ok ()) :
    (fresh d time).begin.2.session.Live ∧ (fresh d time).begin.2.database.tables = d.tables := by
  rw [begin_eq] at hbegin ⊢
  split at hbegin
  · cases hbegin
  · exact ⟨⟨rfl, rfl, fun _ hs => absurd hs List.not_mem_nil⟩, rfl⟩

namespace DatabasePool

/-- The act leaves the session of the thread alone, and what it commits is the work of others. -/
def Bystander (q : Part σ DatabasePool) (thread : ThreadName) (foreign : Tables → Tables → Prop)
    (a : Act σ α) : Prop :=
  ∀ h, (q.get (a h).2.app).held.get? thread = (q.get h.app).held.get? thread ∧
    ReflTransGen foreign (q.get h.app).database.tables (q.get (a h).2.app).database.tables

/-- What a body may do: call the stores of its thread, and let others work. -/
inductive Uses (q : Part σ DatabasePool) (thread : ThreadName) (foreign : Tables → Tables → Prop) :
    {α : Type} → Act σ α → Prop where
  | apart {α : Type} {a : Act σ α} (h : Bystander q thread foreign a) : Uses q thread foreign a
  | bind {α β : Type} {a : Act σ α} {f : α → Act σ β} (ha : Uses q thread foreign a)
      (hf : ∀ x, Uses q thread foreign (f x)) : Uses q thread foreign (a >>= f)
  | create (row : JobStatus) : Uses q thread foreign ((ledger q thread).create row)
  | get (key : JobKey) : Uses q thread foreign ((ledger q thread).get key)
  | merge (row : JobStatus) : Uses q thread foreign ((ledger q thread).merge row)
  | transition (key : JobKey) (u : StatusUpdate) :
      Uses q thread foreign ((ledger q thread).transition key u)
  | list (wish : StatusQuery) : Uses q thread foreign ((ledger q thread).list wish)
  | stats (owner : Option TenantKey) : Uses q thread foreign ((ledger q thread).stats owner)
  | record (s : Statistic) : Uses q thread foreign ((statistics q thread).record s)
  | history (entry : EntryType) (owner : Option TenantKey) (limit : Nat) :
      Uses q thread foreign ((statistics q thread).history entry owner limit)

variable {q : Part σ DatabasePool} {thread : ThreadName} {foreign : Tables → Tables → Prop}
variable {before : Tables} {holds : Bool} {p : DatabasePool}

theorem Bystander.composes (q : Part σ DatabasePool) (thread : ThreadName)
    (foreign : Tables → Tables → Prop) : Composes (Bystander q thread foreign) where
  still h host := by
    rw [h]
    exact ⟨rfl, .refl⟩
  bind ha hf host :=
    ⟨(hf _ _).1.trans (ha host).1, (ha host).2.trans (hf _ _).2⟩

/-- The thread has no session but one that its unit of work and its stores have made: the
transaction was given up, or it is live. -/
def Sane (p : DatabasePool) (thread : ThreadName) : Prop :=
  ∀ s, p.held.get? thread = some s → s.depth = 0 ∨ s.Live

/-- In the midst of a body, by whether the thread has a unit of work: its transaction was given up,
or nobody has seen anything but what others committed since. -/
structure Amid (thread : ThreadName) (foreign : Tables → Tables → Prop) (before : Tables)
    (holds : Bool) (p : DatabasePool) : Prop where
  active : p.isActive thread = holds
  confined : ∀ s, p.held.get? thread = some s →
    s.depth = 0 ∨ s.Live ∧ ReflTransGen foreign before p.database.tables

def Carries (q : Part σ DatabasePool) (thread : ThreadName) (foreign : Tables → Tables → Prop)
    (a : Act σ α) : Prop :=
  ∀ before holds h, Amid thread foreign before holds (q.get h.app) →
    Amid thread foreign before holds (q.get (a h).2.app)

theorem Carries.composes (q : Part σ DatabasePool) (thread : ThreadName)
    (foreign : Tables → Tables → Prop) : Composes (Carries q thread foreign) where
  still h before holds host hamid := by
    rw [h]
    exact hamid
  bind ha hf before holds host hamid := hf _ _ _ _ (ha _ _ _ hamid)

theorem Bystander.carries {a : Act σ α} (ha : Bystander q thread foreign a) :
    Carries q thread foreign a := fun before holds h hamid => by
  obtain ⟨hheld, htables⟩ := ha h
  constructor
  · unfold isActive Assoc.has
    rw [hheld]
    exact hamid.active
  · rw [hheld]
    exact fun s hs => (hamid.confined s hs).imp_right fun ⟨hlive, hreach⟩ =>
      ⟨hlive, hreach.trans htables⟩

theorem Amid.run {program : Query ε α} (hprogram : program.Contained)
    (h : Amid thread foreign before holds p) (time : Instant) :
    Amid thread foreign before holds (run thread time program.run p).2 := by
  unfold DatabasePool.run
  cases hheld : p.held.get? thread with
  | none =>
    simp only
    split
    · exact h
    · exact ⟨h.active, fun s hs => by cases hheld.symm.trans hs⟩
  | some s =>
    let c : Connection := { database := p.database, session := s, time }
    simp only
    change Amid thread foreign before holds
      { p with
        database := (program.run.run c).2.database
        held := p.held.put thread (program.run.run c).2.session }
    constructor
    · rw [← h.active]
      simp [isActive, Assoc.has, hheld]
    · intro s' hs'
      rw [Assoc.get?_put_self] at hs'
      cases hs'
      obtain hgone | ⟨hlive, hreach⟩ := h.confined s hheld
      · exact .inl (hprogram.outside c hgone)
      · refine (hprogram.inside _ c (hlive.stands _ _)).imp_right fun hstands => ?_
        have hsheltered := hstands.sheltered _ rfl
        refine ⟨⟨hstands.depth, hsheltered.session⟩, ?_⟩
        change ReflTransGen foreign before (program.run.run c).2.database.tables
        rwa [hsheltered.tables]

section

variable (lawful : ∀ p a, q.get (q.put p a) = p)

include lawful

theorem call_carries {noConnection : String → ε} {program : Query ε α}
    (hprogram : program.Contained) :
    Carries q thread foreign (call q thread noConnection program) := by
  have kind := Carries.composes q thread foreign
  refine kind.bind kind.now fun time => ?_
  have hrun : Carries q thread foreign (q.run (run thread time program.run)) :=
    fun before holds h hamid => by
      change Amid thread foreign before holds (q.get (q.put _ h.app))
      rw [lawful]
      exact hamid.run hprogram time
  refine kind.bind hrun fun r => ?_
  cases r <;> exact kind.pure _

/-- Whatever a body does with the stores stays in its transaction. -/
theorem Uses.carries {a : Act σ α} (ha : Uses q thread foreign a) : Carries q thread foreign a := by
  have kind := Carries.composes q thread foreign
  induction ha with
  | apart h => exact h.carries
  | bind _ _ ha hf => exact kind.bind ha hf
  | create row =>
    refine kind.bind
      (call_carries lawful (DatabaseLedger.create_plain row).level.contained) fun r => ?_
    cases r with
    | error e => exact kind.pure _
    | ok x => exact kind.bind (kind.log _ _ _ _) fun _ => kind.pure _
  | get key => exact call_carries lawful (DatabaseLedger.load_plain key).level.contained
  | merge row => exact call_carries lawful (DatabaseLedger.merge_plain row).level.contained
  | transition key u =>
    refine kind.bind kind.now fun now => kind.bind kind.now fun later => ?_
    refine kind.bind (call_carries lawful
      (DatabaseLedger.transition_contained key u now later)) fun r => ?_
    cases r with
    | error e => exact kind.pure _
    | ok x => exact kind.bind (kind.log _ _ _ _) fun _ => kind.pure _
  | list wish => exact call_carries lawful (DatabaseLedger.list_plain wish).level.contained
  | stats owner => exact call_carries lawful (DatabaseLedger.stats_plain owner).level.contained
  | record s => exact call_carries lawful (DatabaseStatistics.record_plain s).level.contained
  | history entry owner limit =>
    exact call_carries lawful (DatabaseStatistics.history_plain entry owner limit).level.contained

end

theorem Amid.since {earlier : Tables} (h : Amid thread foreign before holds p)
    (hreach : ReflTransGen foreign earlier before) : Amid thread foreign earlier holds p :=
  ⟨h.active, fun s hs => (h.confined s hs).imp_right fun ⟨hlive, hlater⟩ =>
    ⟨hlive, hreach.trans hlater⟩⟩

theorem Amid.sane (h : Amid thread foreign before holds p) : p.Sane thread := fun s hs =>
  (h.confined s hs).imp_right And.left

theorem Sane.amid (h : p.Sane thread) :
    Amid thread foreign p.database.tables (p.isActive thread) p :=
  ⟨rfl, fun s hs => (h s hs).imp_right fun hlive => ⟨hlive, .refl⟩⟩

/-- Nobody but the thread itself sees that anything was written since: what others committed is all
that happened to the tables, and the unit of work of the thread, if it has one, is open. -/
structure Untraced (thread : ThreadName) (foreign : Tables → Tables → Prop) (before : Tables)
    (holds : Bool) (p : DatabasePool) : Prop where
  active : p.isActive thread = holds
  live : ∀ s, p.held.get? thread = some s → s.Live
  tables : ReflTransGen foreign before p.database.tables

theorem Untraced.apart {a : Act σ α} (ha : Bystander q thread foreign a) {h : Host σ}
    (huntraced : Untraced thread foreign before holds (q.get h.app)) :
    Untraced thread foreign before holds (q.get (a h).2.app) := by
  obtain ⟨hheld, htables⟩ := ha h
  constructor
  · unfold isActive Assoc.has
    rw [hheld]
    exact huntraced.active
  · rw [hheld]
    exact huntraced.live
  · exact huntraced.tables.trans htables

private theorem get?_of_isActive (h : p.isActive thread = true) :
    ∃ s, p.held.get? thread = some s :=
  Option.isSome_iff_exists.mp h

theorem close_eq {s : Session} (hheld : p.held.get? thread = some s)
    (step : Connection → Except DatabaseError Unit × Connection) (operation : String)
    (time : Instant) :
    close step operation thread time p =
      match step { database := p.database, session := s, time } with
      | (.ok (), c) => (.ok (), { p with held := p.held.erase thread, database := c.leave })
      | (.error e, c) => (.error (.backend (e.during operation)),
          { p with held := p.held.erase thread, database := c.abandon.leave }) := by
  rcases hstep : step { database := p.database, session := s, time } with ⟨e | ⟨⟩, c⟩ <;>
    simp only [close, hheld, hstep]

theorem sane_close (step : Connection → Except DatabaseError Unit × Connection)
    (operation : String) (time : Instant) : (close step operation thread time p).2.Sane thread := by
  intro s hs
  suffices hnone : (close step operation thread time p).2.held.get? thread = none by
    cases hnone.symm.trans hs
  cases hheld : p.held.get? thread with
  | none =>
    unfold close
    rw [hheld]
    exact hheld
  | some s =>
    rw [close_eq hheld]
    split <;> exact Assoc.get?_erase_self ..

theorem erase_untraced {d : Database} (hreach : ReflTransGen foreign before d.tables) :
    Untraced thread foreign before false
      { p with held := p.held.erase thread, database := d } := by
  constructor
  · simp [isActive, Assoc.has]
  · intro s hs
    rw [Assoc.get?_erase_self] at hs
    cases hs
  · exact hreach

section

variable (h : Untraced thread foreign before true p)

include h

theorem abort_untraced (time : Instant) :
    Untraced thread foreign before false (abort thread time p).2 := by
  obtain ⟨s, hheld⟩ := get?_of_isActive h.active
  have hstands := (h.live s hheld).stands p.database time
  have hdone := Connection.rollback_tables hstands
  have hfailed := Connection.close_failed hstands .rollback .rollbackToSavepoint
  unfold abort
  rw [close_eq hheld]
  unfold Connection.rollback at hdone ⊢
  generalize Connection.close .rollback .rollbackToSavepoint _ = r at hdone hfailed ⊢
  obtain ⟨r, c⟩ := r
  cases r with
  | ok x => exact erase_untraced ((hdone rfl).symm ▸ h.tables)
  | error e => exact erase_untraced ((hfailed e rfl).symm ▸ h.tables)

theorem finish_untraced {e : UnitOfWorkError} {time : Instant}
    (herror : (finish thread time p).1 = .error e) :
    e ≠ .notActive ∧ Untraced thread foreign before false (finish thread time p).2 := by
  obtain ⟨s, hheld⟩ := get?_of_isActive h.active
  have hstands := (h.live s hheld).stands p.database time
  have hfailed := Connection.close_failed hstands .commit .releaseSavepoint
  unfold finish at herror ⊢
  rw [close_eq hheld] at herror ⊢
  unfold Connection.commit at herror ⊢
  generalize Connection.close .commit .releaseSavepoint _ = r at hfailed herror ⊢
  obtain ⟨r, c⟩ := r
  cases r with
  | ok x => cases herror
  | error e =>
    cases herror
    exact ⟨nofun, erase_untraced ((hfailed e rfl).symm ▸ h.tables)⟩

end

variable (foreign) in
/-- A unit of work that a thread opens or has open already is in the midst of its work. -/
theorem begin_amid (time : Instant) (sane : p.Sane thread) :
    ∃ holds, Amid thread foreign p.database.tables holds (begin thread time p).2 ∧
      (holds → (begin thread time p).1.isOk = !p.isActive thread) := by
  unfold begin
  cases hactive : p.isActive thread with
  | true =>
    refine ⟨true, ⟨hactive, fun s hs => ?_⟩, fun _ => rfl⟩
    exact (sane s hs).imp_right fun hlive => ⟨hlive, .refl⟩
  | false =>
    have hnone : p.held.get? thread = none := by
      simpa [isActive, Assoc.has] using hactive
    have hlive : (Connection.begin { database := p.database, time }).1 = .ok () →
        (Connection.begin { database := p.database, time }).2.session.Live ∧
          (Connection.begin { database := p.database, time }).2.database.tables =
            p.database.tables := Connection.begin_live
    have hidle : ¬(false = true) := Bool.false_ne_true
    simp only [Bool.false_eq_true, ↓reduceIte]
    split
    · exact ⟨false, ⟨hactive, fun s hs => by cases hnone.symm.trans hs⟩, hidle.elim⟩
    · generalize Connection.begin { database := p.database, time } = r at hlive ⊢
      obtain ⟨r, c⟩ := r
      cases r with
      | error e => exact ⟨false, ⟨hactive, fun s hs => by cases hnone.symm.trans hs⟩, hidle.elim⟩
      | ok x =>
        obtain ⟨hsession, htables⟩ := hlive rfl
        refine ⟨true, ⟨by simp [isActive, Assoc.has], fun s hs => .inr ?_⟩, fun _ => rfl⟩
        rw [Assoc.get?_put_self] at hs
        cases hs
        exact ⟨hsession, htables ▸ .refl⟩

section

variable (lawful : ∀ p a, q.get (q.put p a) = p)

include lawful

theorem told_run (message : String)
    (step : Instant → DatabasePool → Except UnitOfWorkError Unit × DatabasePool) (h : Host σ) :
    (told q message step h).1 = (step (Act.now h).1 (q.get h.app)).1 ∧
      q.get (told q message step h).2.app = (step (Act.now h).1 (q.get h.app)).2 := by
  have hrun : told q message step h =
      (do
        if (step (Act.now h).1 (q.get h.app)).1.toOption.isSome then Act.log .infra .debug message
        return (step (Act.now h).1 (q.get h.app)).1 : Act σ (Except UnitOfWorkError Unit))
      { (Act.now h).2 with app := q.put (step (Act.now h).1 (q.get h.app)).2 h.app } := rfl
  rw [hrun]
  cases (step (Act.now h).1 (q.get h.app)).1 with
  | error e => exact ⟨rfl, lawful _ _⟩
  | ok x => exact ⟨rfl, lawful _ _⟩

inductive Advance (q : Part σ DatabasePool) (thread : ThreadName)
    (foreign : Tables → Tables → Prop) : Host σ → Host σ → Prop where
  | begin (h : Host σ) : Advance q thread foreign h ((unitOfWork q thread).begin h).2
  | finish (h : Host σ) : Advance q thread foreign h ((unitOfWork q thread).finish h).2
  | abort (h : Host σ) : Advance q thread foreign h ((unitOfWork q thread).abort h).2
  | uses {α : Type} {a : Act σ α} (ha : Uses q thread foreign a) (h : Host σ) :
      Advance q thread foreign h (a h).2

theorem Advance.sane {h h' : Host σ} (step : Advance q thread foreign h h')
    (sane : (q.get h.app).Sane thread) : (q.get h'.app).Sane thread := by
  cases step with
  | begin =>
    obtain ⟨holds, hamid, -⟩ := begin_amid foreign (Act.now h).1 sane
    have hpool := (told_run lawful "unit of work opened" (DatabasePool.begin thread) h).2
    exact hpool ▸ hamid.sane
  | finish =>
    have hpool := (told_run lawful "unit of work committed" (DatabasePool.finish thread) h).2
    exact hpool ▸ sane_close _ _ _
  | abort =>
    have hpool := (told_run lawful "unit of work rolled back" (DatabasePool.abort thread) h).2
    exact hpool ▸ sane_close _ _ _
  | uses ha => exact (ha.carries lawful _ _ _ sane.amid).sane

/-- A thread that starts without a session only comes to have sane ones. -/
theorem sane_of_advances {h h' : Host σ} (hfree : (q.get h.app).held.get? thread = none)
    (steps : ReflTransGen (Advance q thread foreign) h h') : (q.get h'.app).Sane thread := by
  induction steps with
  | refl => exact fun s hs => by cases hfree.symm.trans hs
  | tail _ step ih => exact step.sane lawful ih

end

end DatabasePool

open DatabasePool (Bystander Uses Amid Untraced)

namespace Harness

/-- The unit of work of the harness is that of the thread, its job works through the stores of the
thread, and all else is the business of others. -/
structure Transacts (h : Harness σ) (q : Part σ DatabasePool) (thread : ThreadName)
    (foreign : Tables → Tables → Prop) (job : Job σ) : Prop where
  unitOfWork : h.unitOfWork = some (DatabasePool.unitOfWork q thread)
  enter : ∀ scope ∈ h.requestScope, ∀ context, Bystander q thread foreign (scope.enter context)
  leave : ∀ scope ∈ h.requestScope, Bystander q thread foreign scope.leave
  publish : ∀ events, Bystander q thread foreign (h.bus.publishBatch events)
  body : ∀ context, Uses q thread foreign (job.body context).execute

namespace Transacts

variable {harness : Harness σ} {q : Part σ DatabasePool} {thread : ThreadName}
variable {foreign : Tables → Tables → Prop} {job : Job σ} {fire : FireContext} {before : Tables}
variable {holds : Bool}

section

variable (works : harness.Transacts q thread foreign job)
variable (lawful : ∀ p a, q.get (q.put p a) = p)

include works lawful

theorem begin_amid {h : Host σ} (sane : (q.get h.app).Sane thread) :
    ∃ holds, Amid thread foreign (q.get h.app).database.tables holds
        (q.get (harness.unitOfWork.begin h).2.app) ∧
      (holds → (harness.unitOfWork.begin h).1 = !(q.get h.app).isActive thread) := by
  rw [works.unitOfWork]
  obtain ⟨howns, happ⟩ := WorkScope.begin_some (DatabasePool.unitOfWork q thread) h
  obtain ⟨hanswer, hpool⟩ := DatabasePool.told_run lawful "unit of work opened"
    (DatabasePool.begin thread) h
  rw [howns, happ]
  change ∃ holds, Amid _ _ _ holds (q.get (DatabasePool.told q _ _ h).2.app) ∧
    (holds → (DatabasePool.told q _ _ h).1.isOk = _)
  rw [hanswer, hpool]
  exact DatabasePool.begin_amid foreign _ sane

theorem midway_amid {h : Host σ} (sane : (q.get h.app).Sane thread) (fire : FireContext) :
    let m := harness.midway job fire h
    ∃ holds, Amid thread foreign (q.get h.app).database.tables holds (q.get m.2.app) ∧
      (holds → m.1.owns = !(q.get h.app).isActive thread) := by
  let arrival := harness.arrive job fire h
  obtain ⟨hheld, htables⟩ :=
    (Bystander.composes q thread foreign).arrive works.enter job fire h
  have hsane : (q.get arrival.2.app).Sane thread := by
    unfold DatabasePool.Sane
    rw [hheld]
    exact sane
  obtain ⟨holds, hamid, howns⟩ := works.begin_amid lawful hsane
  refine ⟨holds, ?_, fun hholds => ?_⟩
  · exact (works.body _).carries lawful _ _ _ (hamid.since htables)
  · refine (howns hholds).trans ?_
    unfold DatabasePool.isActive Assoc.has
    rw [hheld]

theorem rollback_untraced {h : Host σ} (owns : Bool)
    (hopen : Untraced thread foreign before true (q.get h.app)) :
    Untraced thread foreign before (!owns) (q.get (harness.rollback owns h).2.app) := by
  cases owns with
  | false => exact hopen
  | true =>
    have happ := WorkScope.abort_some (DatabasePool.unitOfWork q thread) h
    have hpool := (DatabasePool.told_run lawful "unit of work rolled back"
      (DatabasePool.abort thread) h).2
    unfold Harness.rollback
    rw [works.unitOfWork]
    simp only [↓reduceIte]
    rw [happ]
    change Untraced _ _ _ _ (q.get (DatabasePool.told q _ _ h).2.app)
    rw [hpool]
    exact DatabasePool.abort_untraced hopen _

theorem commit_untraced {h : Host σ} {owns : Bool} {e : UnitOfWorkError}
    (hopen : Untraced thread foreign before true (q.get h.app))
    (herror : (harness.commit owns h).1 = .error e) :
    Untraced thread foreign before (!owns) (q.get (harness.commit owns h).2.app) := by
  cases owns with
  | false => cases herror
  | true =>
    obtain ⟨hanswer, happ⟩ := WorkScope.finish_some (DatabasePool.unitOfWork q thread) h
    obtain ⟨htold, hpool⟩ := DatabasePool.told_run lawful "unit of work committed"
      (DatabasePool.finish thread) h
    unfold Harness.commit at herror ⊢
    rw [works.unitOfWork] at herror ⊢
    simp only [↓reduceIte] at herror ⊢
    rw [hanswer] at herror
    rw [happ]
    change WorkScope.excused (DatabasePool.told q _ _ h).1 = Except.error e at herror
    change Untraced _ _ _ _ (q.get (DatabasePool.told q _ _ h).2.app)
    rw [htold] at herror
    rw [hpool]
    cases hfinish : (DatabasePool.finish thread (Act.now h).1 (q.get h.app)).1 with
    | ok x =>
      rw [hfinish] at herror
      cases herror
    | error cause => exact (DatabasePool.finish_untraced hopen hfinish).2

end

/-- A run that is over with an error of its own has discarded the unit of work that it opened. -/
theorem wrapUp_untraced (works : harness.Transacts q thread foreign job)
    (lawful : ∀ p a, q.get (q.put p a) = p) {m : Midway} {h : Host σ} {e : DispatchError}
    (hrun : m.run.key = fire.key ∧ m.run.attempt = fire.refireCount)
    (hopen : Untraced thread foreign before true (q.get h.app))
    (failed : (harness.wrapUp job m.run m.started m.owns m.ended m.events h).1 = .error e)
    (unpublished : m.ended = .ok () → ∀ refusal, e ≠ unsent fire refusal) :
    Untraced thread foreign before (!m.owns)
      (q.get (harness.wrapUp job m.run m.started m.owns m.ended m.events h).2.app) := by
  have kind := Bystander.composes q thread foreign
  cases hended : m.ended with
  | error stop =>
    let retreat := harness.retreat job m.run stop m.events h
    have hretreat : Untraced thread foreign before true (q.get retreat.2.app) :=
      hopen.apart (kind.retreat works.leave job m.run stop m.events)
    have hrollback := works.rollback_untraced lawful m.owns hretreat
    have hrest : Bystander q thread foreign (do
        reportTime job m.started
        Act.leaveSpan
        return .error retreat.1 : Act σ (Except DispatchError Unit)) :=
      kind.bind (kind.reportTime m.started) fun _ =>
        kind.bind (kind.still fun _ => rfl) fun _ => kind.pure _
    exact hrollback.apart hrest
  | ok x =>
    let finished := m.run.finish h
    let closed := harness.commit m.owns finished.2
    have hdepart := kind.depart works.leave works.publish job finished.1 m.started m.events closed.1
    rw [hended] at failed
    cases hclosed : closed.1 with
    | error cause =>
      have hcommit := works.commit_untraced lawful (h := finished.2) hopen hclosed
      exact hcommit.apart hdepart
    | ok y =>
      have hanswer :
          (harness.conclude job finished.1 m.events closed.1 closed.2).1 = .error e := failed
      rw [hclosed] at hanswer
      obtain hok | ⟨refusal, hrefused⟩ := flush_answer harness fire hrun m.events closed.2
      · cases hok.symm.trans hanswer
      · cases hrefused.symm.trans hanswer
        exact absurd rfl (unpublished hended refusal)

/-- A failed run leaves no trace. When a run answers with an error, and that is not for events that
could not be sent, nobody sees what its body wrote with the stores of the thread, as long as the
unit of work was still open when the body ended: what others committed is all that happened to the
tables. A unit that the run opened is gone, and one that it joined is open as it was. -/
theorem failed_run_untraced (works : harness.Transacts q thread foreign job)
    (lawful : ∀ p a, q.get (q.put p a) = p) {h : Host σ} {e : DispatchError}
    (sane : (q.get h.app).Sane thread)
    (failed : (harness.run job fire h).1 = .error e)
    (unfinished : ∃ s, (q.get (harness.midway job fire h).2.app).held.get? thread = some s ∧
      s.depth ≠ 0)
    (unpublished : (harness.midway job fire h).1.ended = .ok () →
      ∀ refusal, e ≠ unsent fire refusal) :
    Untraced thread foreign (q.get h.app).database.tables ((q.get h.app).isActive thread)
      (q.get (harness.run job fire h).2.app) := by
  obtain ⟨holds, hamid, howns⟩ := works.midway_amid lawful sane fire
  obtain ⟨s, hs, hdepth⟩ := unfinished
  have hactive : (q.get (harness.midway job fire h).2.app).isActive thread = true := by
    unfold DatabasePool.isActive Assoc.has
    rw [hs]
    rfl
  obtain rfl : holds = true := hamid.active.symm.trans hactive
  obtain ⟨hlive, hreach⟩ := (hamid.confined s hs).resolve_left hdepth
  have hopen : Untraced thread foreign (q.get h.app).database.tables true
      (q.get (harness.midway job fire h).2.app) := by
    refine ⟨hactive, fun s' hs' => ?_, hreach⟩
    cases hs.symm.trans hs'
    exact hlive
  have hrun : (harness.midway job fire h).1.run.key = fire.key ∧
      (harness.midway job fire h).1.run.attempt = fire.refireCount := start_gives fire h
  rw [run_midway] at failed ⊢
  have hover := works.wrapUp_untraced lawful hrun hopen failed unpublished
  rwa [show (!(harness.midway job fire h).1.owns) = (q.get h.app).isActive thread by
    rw [howns rfl, Bool.not_not]] at hover

end Transacts

def stores : Part DatabasePool DatabasePool := .whole

def onDatabase : Harness DatabasePool where
  policy := .unlimited
  bus := .ofPublish fun _ => pure (.ok ())
  unitOfWork := some (DatabasePool.unitOfWork stores .worker)

def hasty : Job DatabasePool where
  name := "tally"
  body _ := do
    let statistic ← Body.act (Statistic.raw .totalJobs none 1)
    let _ ← Body.act ((DatabasePool.statistics stores .worker).record statistic)
    Body.fail (.conflict "busy")

def firstFire : FireContext :=
  { definition := { key := ⟨"daily"⟩, kind := "tally" }, data := .empty, refireCount := 0
    scheduledFor := .epoch, firedAt := .epoch }

def emptyTables (faults : List StatementFault) : Host DatabasePool where
  clock := .epoch
  app := { database := { tables := { statuses := some [], statistics := some [] }, faults } }

theorem hasty_transacts (foreign : Tables → Tables → Prop) :
    onDatabase.Transacts stores .worker foreign hasty where
  unitOfWork := rfl
  enter := nofun
  leave := nofun
  publish := (Bystander.composes _ _ _).oneByOne (fun _ => (Bystander.composes _ _ _).pure _) 0
  body context := by
    have kind := Bystander.composes stores .worker foreign
    change Uses _ _ _ (StateT.run (ExceptT.run (Body.act _ >>= _)) [])
    rw [Body.run_act]
    refine .bind (.apart (kind.still fun _ => rfl)) fun statistic => ?_
    rw [Body.run_act]
    exact .bind (.record statistic) fun r => .apart (kind.pure _)

/-- In a database where nothing fails, what that job recorded is gone when it failed. -/
theorem hasty_untraced :
    let h := emptyTables []
    let r := onDatabase.run hasty firstFire h
    r.1 = .error (failed onDatabase.policy hasty firstFire (.conflict "busy")) ∧
      (stores.get r.2.app).database.tables = (stores.get h.app).database.tables ∧
      (stores.get r.2.app).isActive .worker = (stores.get h.app).isActive .worker := by
  intro h r
  have hfailed : r.1 = .error (failed onDatabase.policy hasty firstFire (.conflict "busy")) := rfl
  have lawful : ∀ p a, stores.get (stores.put p a) = p := fun _ _ => rfl
  have nothing : ReflTransGen (DatabasePool.Advance stores .worker fun _ _ => False) h h := .refl
  have sane : (stores.get h.app).Sane .worker := DatabasePool.sane_of_advances lawful rfl nothing
  have huntraced := Transacts.failed_run_untraced (hasty_transacts fun _ _ => False) lawful sane
    hfailed ⟨_, rfl, Nat.one_ne_zero⟩
    fun _ refusal hunsent => nomatch congrArg DispatchError.cause hunsent
  have hr : onDatabase.run hasty firstFire h = r := rfl
  rw [hr] at huntraced
  exact ⟨hfailed, (Relation.reflTransGen_iff_eq fun _ => id).mp huntraced.tables, huntraced.active⟩

/-- When no transaction can be opened, the run goes without, and what it wrote is seen. -/
theorem hasty_traced :
    let h := emptyTables [{ start := "BEGIN", error := ⟨"53200", "out of memory"⟩, times := 1 }]
    let r := onDatabase.run hasty firstFire h
    onDatabase.Transacts stores .worker (fun _ _ => False) hasty ∧
      r.1 = .error (failed onDatabase.policy hasty firstFire (.conflict "busy")) ∧
      (stores.get h.app).database.tables.statistics.map (·.length) = some 0 ∧
      (stores.get r.2.app).database.tables.statistics.map (·.length) = some 1 :=
  ⟨hasty_transacts _, rfl, rfl, rfl⟩

end Harness

end JobEngine
