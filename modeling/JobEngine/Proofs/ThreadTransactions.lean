import JobEngine.Proofs.Continuity
import JobEngine.Proofs.Queue
import JobEngine.Proofs.Transcript
/-! Whose transaction is whose. Calls of many threads get in each other's way: each takes what it
needs out of the pool, works in the database, and puts back what is to be kept. A thread has at most
one unit of work all the same, which its own calls alone open, work in and close. -/

namespace JobEngine

namespace DatabasePool

variable {ε α : Type}

/-! The calls in two steps, with the database between them. -/

def take (thread : ThreadName) (p : DatabasePool) : DatabasePool :=
  { p with held := p.held.erase thread }

def openUnit (thread : ThreadName) (time : Instant) (p : DatabasePool) :
    Except UnitOfWorkError Session × DatabasePool :=
  if p.isClosed then (.error (.backend (closedIn "begin_unit_of_work")), p)
  else
    match Connection.begin (.fresh p.database time) with
    | (.error e, c) =>
      (.error (.backend (e.during "begin_unit_of_work")), { p with database := c.leave })
    | (.ok (), c) =>
      (.ok c.session, { p with database := c.database, held := p.held.put thread c.session })

def serveCall (thread : ThreadName) (call : StoreCall) (time : Instant) (taken : Option Session)
    (p : DatabasePool) : Option Session × DatabasePool :=
  match taken with
  | some session =>
    let c := call.on { database := p.database, session, time }
    (some c.session, { p with database := c.database, held := p.held.put thread c.session })
  | none =>
    if p.isClosed then (none, p)
    else (none, { p with database := (call.on (.fresh p.database time)).leave })

def closing (keeps : Bool) : Connection → Except DatabaseError Unit × Connection :=
  if keeps then Connection.commit else Connection.rollback

def closingName (keeps : Bool) : String :=
  if keeps then "commit_unit_of_work" else "rollback_unit_of_work"

def closeUnit (keeps : Bool) (session : Session) (time : Instant) (p : DatabasePool) :
    Except UnitOfWorkError Unit × DatabasePool :=
  let r := closing keeps { database := p.database, session, time }
  (r.1.mapError fun e => .backend (e.during (closingName keeps)),
    { p with database := (Connection.handedBack r).leave })

variable {thread other : ThreadName} {time : Instant} {p : DatabasePool} {call : StoreCall}

theorem begin_eq_openUnit : begin thread time p =
    if p.isActive thread then (.error .alreadyActive, p)
    else ((openUnit thread time p).1.map fun _ => (), (openUnit thread time p).2) := by
  unfold begin openUnit
  split
  · rfl
  · split
    · rfl
    · change (match Connection.begin (.fresh p.database time) with
        | (.error e, c) => _
        | (.ok (), c) => _) = _
      generalize Connection.begin (.fresh p.database time) = r
      obtain ⟨r, c⟩ := r
      cases r <;> rfl

theorem run_eq_serveCall {program : Query ε α} (h : call.on = program.leaves) :
    (run thread time program.run p).2.database =
        (serveCall thread call time (p.held.get? thread) (p.take thread)).2.database ∧
      ∀ other, (run thread time program.run p).2.held.get? other =
        (serveCall thread call time (p.held.get? thread) (p.take thread)).2.held.get? other := by
  unfold run serveCall
  rw [h]
  cases hheld : p.held.get? thread with
  | some session =>
    refine ⟨rfl, fun other => ?_⟩
    change (p.held.put thread _).get? other = ((p.held.erase thread).put thread _).get? other
    rw [Assoc.get?_put, Assoc.get?_put, Assoc.get?_erase]
    split <;> rfl
  | none =>
    have herase : ∀ other, (p.held.erase thread).get? other = p.held.get? other := by
      intro other
      rw [Assoc.get?_erase]
      split
      next heq => rw [← heq, hheld]
      · rfl
    have hclosed : (p.take thread).isClosed = p.isClosed := rfl
    simp only [hclosed]
    split <;> exact ⟨rfl, fun other => (herase other).symm⟩

theorem close_eq_closeUnit (keeps : Bool) :
    (if keeps then finish else abort) thread time p = match p.held.get? thread with
      | none => (.error .notActive, p)
      | some session => closeUnit keeps session time (p.take thread) := by
  have hclose : (if keeps then finish else abort) = close (closing keeps) (closingName keeps) := by
    cases keeps <;> rfl
  rw [hclose]
  unfold close
  cases p.held.get? thread with
  | none => rfl
  | some session =>
    unfold closeUnit take
    simp only
    generalize closing keeps { database := p.database, session, time } = r
    obtain ⟨r, c⟩ := r
    cases r <;> rfl

theorem held_openUnit (other : ThreadName) : (openUnit thread time p).2.held.get? other =
    match (openUnit thread time p).1 with
    | .ok session => if thread = other then some session else p.held.get? other
    | .error _ => p.held.get? other := by
  unfold openUnit
  split
  · rfl
  · generalize Connection.begin (.fresh p.database time) = r
    obtain ⟨r, c⟩ := r
    cases r with
    | error e => rfl
    | ok x => exact Assoc.get?_put ..

theorem held_serveCall (taken : Option Session) (other : ThreadName) :
    (serveCall thread call time taken p).2.held.get? other =
      if thread = other ∧ taken.isSome then (serveCall thread call time taken p).1
      else p.held.get? other := by
  unfold serveCall
  cases taken with
  | some session =>
    simp only [Option.isSome_some, and_true]
    exact Assoc.get?_put ..
  | none =>
    refine Eq.trans ?_ (if_neg fun h => Bool.noConfusion h.2).symm
    simp only
    split <;> rfl

private theorem left_serveCall_none : (serveCall thread call time none p).1 = none := by
  unfold serveCall
  simp only
  split <;> rfl

/-- What a thread is in the midst of, with what it has taken out of the pool for it. -/
inductive Phase where
  | opening
  | calling (call : StoreCall) (taken : Option Session)
  | closing (keeps : Bool) (session : Session)

/-- The pool, and the calls that are under way, at most one in each thread. -/
structure Floor where
  pool : DatabasePool
  underway : Assoc ThreadName Phase := []

inductive Event where
  | began (thread : ThreadName) (answer : Except UnitOfWorkError Session)
  | called (thread : ThreadName) (call : StoreCall) (taken left : Option Session)
  | closed (thread : ThreadName) (keeps : Bool) (answer : Except UnitOfWorkError Unit)
  | passed

/-- The steps of the calls, in whatever order they come. -/
inductive Step : Floor → Event → Floor → Prop where
  | refuse {s : Floor} (thread : ThreadName) (hidle : s.underway.get? thread = none)
      (hactive : s.pool.isActive thread) :
      Step s (.began thread (.error .alreadyActive)) s
  | enter {s : Floor} (thread : ThreadName) (hidle : s.underway.get? thread = none)
      (hfree : s.pool.isActive thread = false) :
      Step s .passed { s with underway := s.underway.put thread .opening }
  | begin {s : Floor} (thread : ThreadName) (time : Instant)
      (h : s.underway.get? thread = some .opening) :
      Step s (.began thread (openUnit thread time s.pool).1)
        { pool := (openUnit thread time s.pool).2, underway := s.underway.erase thread }
  | take {s : Floor} (thread : ThreadName) (call : StoreCall)
      (hidle : s.underway.get? thread = none) :
      Step s .passed
        { pool := s.pool.take thread
          underway := s.underway.put thread (.calling call (s.pool.held.get? thread)) }
  | call {s : Floor} {call : StoreCall} {taken : Option Session} (thread : ThreadName)
      (time : Instant) (h : s.underway.get? thread = some (.calling call taken)) :
      Step s (.called thread call taken (serveCall thread call time taken s.pool).1)
        { pool := (serveCall thread call time taken s.pool).2
          underway := s.underway.erase thread }
  | miss {s : Floor} (thread : ThreadName) (keeps : Bool) (hidle : s.underway.get? thread = none)
      (hnone : s.pool.held.get? thread = none) :
      Step s (.closed thread keeps (.error .notActive)) s
  | release {s : Floor} {session : Session} (thread : ThreadName) (keeps : Bool)
      (hidle : s.underway.get? thread = none) (hheld : s.pool.held.get? thread = some session) :
      Step s .passed
        { pool := s.pool.take thread, underway := s.underway.put thread (.closing keeps session) }
  | close {s : Floor} {keeps : Bool} {session : Session} (thread : ThreadName) (time : Instant)
      (h : s.underway.get? thread = some (.closing keeps session)) :
      Step s (.closed thread keeps (closeUnit keeps session time s.pool).1)
        { pool := (closeUnit keeps session time s.pool).2, underway := s.underway.erase thread }
  | elsewhere {s : Floor} (database : Database) (isReachable isClosed : Bool) :
      Step s .passed { s with pool := { s.pool with database, isReachable, isClosed } }

abbrev Run := Transcript Step

/-- The unit of work of a thread, whether it is in the pool or a call has taken it out. -/
def Floor.unit (s : Floor) (thread : ThreadName) : Option Session :=
  match s.underway.get? thread with
  | none => s.pool.held.get? thread
  | some .opening => none
  | some (.calling _ taken) => taken
  | some (.closing _ session) => some session

def Event.unit (thread : ThreadName) (had : Option Session) : Event → Option Session
  | .began other answer =>
    if other = thread then
      match answer with
      | .ok session => some session
      | .error .alreadyActive => had
      | .error _ => none
    else had
  | .called other _ _ left => if other = thread then left else had
  | .closed other _ _ => if other = thread then none else had
  | .passed => had

def unitAfter (events : List Event) (thread : ThreadName) : Option Session :=
  events.foldl (Event.unit thread) none

section

variable {s t u : Floor} {event : Event} {events : List Event}

def Floor.Apart (s : Floor) (thread : ThreadName) : Prop :=
  ∀ phase, s.underway.get? thread = some phase → s.pool.held.get? thread = none

theorem unit_idle {thread : ThreadName} (h : s.underway.get? thread = none) :
    s.unit thread = s.pool.held.get? thread := by
  unfold Floor.unit
  rw [h]

private theorem apart_idle {thread : ThreadName} (h : s.underway.get? thread = none) :
    s.Apart thread :=
  fun phase hphase => by cases h.symm.trans hphase

theorem unit_ended (thread : ThreadName) (pool : DatabasePool)
    (underway : Assoc ThreadName Phase) :
    let t : Floor := { pool, underway := underway.erase thread }
    t.Apart thread ∧ t.unit thread = pool.held.get? thread :=
  ⟨apart_idle (Assoc.get?_erase_self ..), unit_idle (Assoc.get?_erase_self ..)⟩

private theorem unit_openUnit {thread : ThreadName} {p : DatabasePool}
    (hnone : p.held.get? thread = none) (time : Instant) :
    (openUnit thread time p).2.held.get? thread =
      (Event.began thread (openUnit thread time p).1).unit thread none := by
  rw [held_openUnit, hnone]
  generalize (openUnit thread time p).1 = answer
  cases answer with
  | ok session => simp only [Event.unit, if_pos]
  | error e => cases e <;> simp only [Event.unit, if_pos]

private theorem unit_serveCall {thread : ThreadName} {p : DatabasePool} {taken : Option Session}
    (hnone : p.held.get? thread = none) (call : StoreCall) (time : Instant) :
    (serveCall thread call time taken p).2.held.get? thread =
      (serveCall thread call time taken p).1 := by
  rw [held_serveCall]
  cases taken with
  | some session => exact if_pos ⟨rfl, rfl⟩
  | none =>
    rw [left_serveCall_none, if_neg fun heq => Bool.noConfusion heq.2]
    exact hnone

/-- A step is that of one thread, and nothing to the others. -/
theorem Step.local (h : Step s event t) : ∃ thread,
    (∀ other, thread ≠ other → t.underway.get? other = s.underway.get? other ∧
      t.pool.held.get? other = s.pool.held.get? other ∧ ∀ had, event.unit other had = had) ∧
    (s.Apart thread → t.Apart thread ∧ t.unit thread = event.unit thread (s.unit thread)) := by
  cases h with
  | refuse thread hidle hactive =>
    exact ⟨thread, fun other hne => ⟨rfl, rfl, fun _ => if_neg hne⟩, fun hapart =>
      ⟨hapart, (if_pos rfl).symm⟩⟩
  | enter thread hidle hfree =>
    have hnone : s.pool.held.get? thread = none := by
      simpa [isActive, Assoc.has] using hfree
    refine ⟨thread, fun other hne => ⟨Assoc.get?_put_of_ne _ _ hne, rfl, fun _ => rfl⟩, fun _ =>
      ⟨fun _ _ => hnone, ?_⟩⟩
    rw [Event.unit, unit_idle hidle, hnone, Floor.unit]
    simp only [Assoc.get?_put_self]
  | begin thread time h =>
    refine ⟨thread, fun other hne => ⟨Assoc.get?_erase_of_ne _ hne, ?_, fun _ => if_neg hne⟩,
      fun hapart => ?_⟩
    · change (openUnit thread time s.pool).2.held.get? other = _
      rw [held_openUnit]
      split
      · exact if_neg hne
      · rfl
    · obtain ⟨hlast, hunit⟩ := unit_ended thread (openUnit thread time s.pool).2 s.underway
      have hhad : s.unit thread = none := by rw [Floor.unit, h]
      rw [hhad]
      exact ⟨hlast, hunit.trans (unit_openUnit (hapart _ h) time)⟩
  | take thread call hidle =>
    refine ⟨thread, fun other hne => ⟨Assoc.get?_put_of_ne _ _ hne, Assoc.get?_erase_of_ne _ hne,
      fun _ => rfl⟩, fun _ => ⟨fun _ _ => Assoc.get?_erase_self .., ?_⟩⟩
    rw [Event.unit, unit_idle hidle, Floor.unit]
    simp only [Assoc.get?_put_self]
  | @call call taken thread time h =>
    refine ⟨thread, fun other hne => ⟨Assoc.get?_erase_of_ne _ hne, ?_, fun _ => if_neg hne⟩,
      fun hapart => ?_⟩
    · exact (held_serveCall taken other).trans (if_neg fun heq => hne heq.1)
    · obtain ⟨hlast, hunit⟩ :=
        unit_ended thread (serveCall thread call time taken s.pool).2 s.underway
      refine ⟨hlast, hunit.trans ?_⟩
      rw [Event.unit, if_pos rfl]
      exact unit_serveCall (hapart _ h) call time
  | miss thread keeps hidle hnone =>
    refine ⟨thread, fun other hne => ⟨rfl, rfl, fun _ => if_neg hne⟩, fun hapart => ⟨hapart, ?_⟩⟩
    rw [Event.unit, if_pos rfl, unit_idle hidle, hnone]
  | release thread keeps hidle hheld =>
    refine ⟨thread, fun other hne => ⟨Assoc.get?_put_of_ne _ _ hne, Assoc.get?_erase_of_ne _ hne,
      fun _ => rfl⟩, fun _ => ⟨fun _ _ => Assoc.get?_erase_self .., ?_⟩⟩
    rw [Event.unit, unit_idle hidle, hheld, Floor.unit]
    simp only [Assoc.get?_put_self]
  | @close keeps session thread time h =>
    refine ⟨thread, fun other hne => ⟨Assoc.get?_erase_of_ne _ hne, rfl, fun _ => if_neg hne⟩,
      fun hapart => ?_⟩
    obtain ⟨hlast, hunit⟩ := unit_ended thread (closeUnit keeps session time s.pool).2 s.underway
    refine ⟨hlast, hunit.trans ?_⟩
    rw [Event.unit, if_pos rfl]
    exact hapart _ h
  | elsewhere => exact ⟨.main, fun _ _ => ⟨rfl, rfl, fun _ => rfl⟩, fun hapart => ⟨hapart, rfl⟩⟩

theorem Step.apart (h : Step s event t) (hs : ∀ thread, s.Apart thread) (thread : ThreadName) :
    t.Apart thread ∧ t.unit thread = event.unit thread (s.unit thread) := by
  obtain ⟨acting, hothers, hown⟩ := h.local
  by_cases heq : acting = thread
  · subst heq
    exact hown (hs acting)
  · obtain ⟨hunderway, hheld, hunit⟩ := hothers thread heq
    constructor
    · intro phase hphase
      rw [hheld]
      exact hs thread phase (hunderway ▸ hphase)
    · unfold Floor.unit
      rw [hunit, hunderway, hheld]

def Pooled (t u : Floor) : Prop :=
  u.pool.database = t.pool.database ∨ ∃ c : Connection, c.Over ∧ u.pool.database = c.leave

/-- What a call does on the connection of a unit of work. -/
structure Works (call : StoreCall) (c : Connection) (u : Floor) (left : Session) : Prop where
  session : left = (call.on c).session
  database : u.pool.database = (call.on c).database
  hidden : c.session.Live → u.pool.database.tables = c.database.tables
  goes_on : c.session.Live → ¬call.Balks c → left.Live ∧ c.Onward (call.on c)
  gives_up : c.session.Live → call.Balks c → left.depth = 0 ∧ left.queued = [.rollback]
  stays_given_up : c.session.depth = 0 → left.depth = 0

/-- What comes of a call, by the units of work that the threads had. -/
def Event.Answers (had : ThreadName → Option Session) (t u : Floor) : Event → Prop
  | .began thread answer =>
    (answer = .error .alreadyActive ↔ had thread ≠ none) ∧
      (answer = .error .alreadyActive → u = t) ∧
      (∀ session, answer = .ok session → session.Live) ∧
      ∀ e, answer = .error e → Pooled t u
  | .called thread call taken left =>
    taken = had thread ∧
      (taken = none → left = none ∧ Pooled t u) ∧
      ∀ session, taken = some session → ∃ time after, left = some after ∧
        Works call { database := t.pool.database, session, time } u after
  | .closed thread _ answer =>
    (answer = .error .notActive ↔ had thread = none) ∧
      (answer = .error .notActive → u = t) ∧
      ∀ session, had thread = some session → session.Live → Pooled t u
  | .passed => True

theorem openUnit_cases (thread : ThreadName) (time : Instant) (p : DatabasePool) :
    (∃ reason, (openUnit thread time p).1 = .error (.backend reason) ∧
        ((openUnit thread time p).2.database = p.database ∨
          ∃ c : Connection, c.Over ∧ (openUnit thread time p).2.database = c.leave)) ∨
      ∃ session, (openUnit thread time p).1 = .ok session ∧ session.Live := by
  have hlive := @Connection.begin_live p.database time
  unfold openUnit
  split
  · exact .inl ⟨_, rfl, .inl rfl⟩
  · rw [Connection.begin_eq] at hlive ⊢
    cases hstrike : StatementFault.strike .begin p.database.faults with
    | some r =>
      refine .inl ⟨_, rfl, .inr ⟨_, ?_, rfl⟩⟩
      exact Connection.over_of_none (fun _ hs => absurd hs List.not_mem_nil) rfl
    | none =>
      rw [hstrike] at hlive
      exact .inr ⟨_, rfl, (hlive rfl).1⟩

theorem works_serveCall (thread : ThreadName) (call : StoreCall) (time : Instant)
    (session : Session) (p : DatabasePool) (underway : Assoc ThreadName Phase) :
    let c : Connection := { database := p.database, session, time }
    (serveCall thread call time (some session) p).1 = some (call.on c).session ∧
      Works call c { pool := (serveCall thread call time (some session) p).2, underway }
        (call.on c).session := by
  intro c
  refine ⟨rfl, rfl, rfl, fun hlive => ?_, fun hlive hopens => ?_, fun hlive hbalks => ?_,
    StoreCall.stays_given_up⟩
  · by_cases hbalks : call.Balks c
    · exact (StoreCall.gives_up (hlive.stands p.database time) hbalks).2.2
    · obtain ⟨hstands, -⟩ := StoreCall.goes_on (hlive.stands p.database time) hbalks
      exact (hstands.sheltered _ rfl).tables
  · obtain ⟨hstands, honward⟩ := StoreCall.goes_on (hlive.stands p.database time) hopens
    exact ⟨⟨hstands.depth, (hstands.sheltered _ rfl).session⟩, honward⟩
  · obtain ⟨hdepth, hqueued, -⟩ := StoreCall.gives_up (hlive.stands p.database time) hbalks
    exact ⟨hdepth, hqueued⟩

private theorem pooled_serveCall (thread : ThreadName) (call : StoreCall) (time : Instant)
    (s : Floor) (underway : Assoc ThreadName Phase) :
    Pooled s { pool := (serveCall thread call time none s.pool).2, underway } := by
  unfold Pooled serveCall
  simp only
  split
  · exact .inl rfl
  · exact .inr ⟨_, call.over_fresh _ time, rfl⟩

private theorem pooled_closeUnit (keeps : Bool) {session : Session} (hlive : session.Live)
    (time : Instant) (s : Floor) (underway : Assoc ThreadName Phase) :
    Pooled s { pool := (closeUnit keeps session time s.pool).2, underway } := by
  refine .inr ⟨_, ?_, rfl⟩
  cases keeps with
  | true => exact Connection.over_close hlive.depth (.inl rfl) _
  | false => exact Connection.over_close hlive.depth (.inr rfl) _

private theorem closeUnit_answer (keeps : Bool) (session : Session) (time : Instant)
    (p : DatabasePool) : (closeUnit keeps session time p).1 ≠ .error .notActive := by
  unfold closeUnit
  simp only
  generalize (closing keeps { database := p.database, session, time }).1 = answer
  cases answer <;> nofun

/-- Each step answers by what the thread has, and does what it answers. -/
theorem Step.answers (h : Step s event t) : event.Answers s.unit s t := by
  cases h with
  | refuse thread hidle hactive =>
    have hhas : s.unit thread ≠ none := by
      rw [unit_idle hidle]
      exact Option.isSome_iff_ne_none.mp hactive
    exact ⟨⟨fun _ => hhas, fun _ => rfl⟩, fun _ => rfl, nofun, fun _ _ => .inl rfl⟩
  | enter => trivial
  | begin thread time h =>
    have hnone : s.unit thread = none := by rw [Floor.unit, h]
    obtain ⟨reason, hanswer, hpooled⟩ | ⟨session, hanswer, hlive⟩ :=
      openUnit_cases thread time s.pool
    · rw [hanswer]
      exact ⟨⟨nofun, fun hhad => absurd hnone hhad⟩, nofun, nofun, fun _ _ => hpooled⟩
    · rw [hanswer]
      refine ⟨⟨nofun, fun hhad => absurd hnone hhad⟩, nofun, ?_, nofun⟩
      rintro _ ⟨⟩
      exact hlive
  | take => trivial
  | @call call taken thread time h =>
    have htaken : taken = s.unit thread := by rw [Floor.unit, h]
    refine ⟨htaken, ?_, ?_⟩
    · rintro rfl
      exact ⟨left_serveCall_none, pooled_serveCall ..⟩
    · rintro session rfl
      exact ⟨time, _, works_serveCall ..⟩
  | miss thread keeps hidle hnone =>
    have hhad : s.unit thread = none := (unit_idle hidle).trans hnone
    refine ⟨⟨fun _ => hhad, fun _ => rfl⟩, fun _ => rfl, fun session hsession => ?_⟩
    cases hhad.symm.trans hsession
  | release => trivial
  | @close keeps session thread time h =>
    have hhad : s.unit thread = some session := by rw [Floor.unit, h]
    have hanswer := closeUnit_answer keeps session time s.pool
    refine ⟨⟨fun hnot => absurd hnot hanswer, fun hnone => ?_⟩, fun hnot => absurd hnot hanswer,
      fun session' hsession hlive => ?_⟩
    · cases hhad.symm.trans hnone
    · cases hhad.symm.trans hsession
      exact pooled_closeUnit keeps hlive time s _
  | elsewhere => trivial

def Floor.Sane (s : Floor) : Prop :=
  ∀ thread session, s.unit thread = some session → session.depth = 0 ∨ session.Live

structure Floor.Orderly (s : Floor) : Prop where
  apart : ∀ thread, s.Apart thread
  sane : s.Sane

/-- A thread has a unit of work because it had it, has opened it, or was left it by a call. -/
theorem Event.unit_cases {thread : ThreadName} {had : Option Session} {session : Session}
    (h : event.unit thread had = some session) :
    had = some session ∨ event = .began thread (.ok session) ∨
      ∃ call taken, event = .called thread call taken (some session) := by
  cases event with
  | passed => exact .inl h
  | closed other keeps answer =>
    rw [Event.unit] at h
    split at h
    · cases h
    · exact .inl h
  | began other answer =>
    by_cases heq : other = thread
    · subst heq
      cases answer with
      | ok opened =>
        rw [Event.unit, if_pos rfl] at h
        cases h
        exact .inr (.inl rfl)
      | error e =>
        cases e with
        | alreadyActive =>
          rw [Event.unit, if_pos rfl] at h
          exact .inl h
        | notActive | backend => simp [Event.unit] at h
    · exact .inl ((if_neg heq).symm.trans h)
  | called other call taken left =>
    rw [Event.unit] at h
    split at h
    next heq => exact .inr (.inr ⟨call, taken, by rw [heq, h]⟩)
    · exact .inl h

theorem Works.sane {call : StoreCall} {c : Connection} {u : Floor} {left : Session}
    (works : Works call c u left) (h : c.session.depth = 0 ∨ c.session.Live) :
    left.depth = 0 ∨ left.Live := by
  obtain hgone | hlive := h
  · exact .inl (works.stays_given_up hgone)
  · by_cases hbalks : call.Balks c
    · exact .inl (works.gives_up hlive hbalks).1
    · exact .inr (works.goes_on hlive hbalks).1

theorem Step.orderly (h : Step s event t) (hs : s.Orderly) : t.Orderly := by
  refine ⟨fun thread => (h.apart hs.apart thread).1, fun thread session hsession => ?_⟩
  rw [(h.apart hs.apart thread).2] at hsession
  have hanswers := h.answers
  obtain hkept | rfl | ⟨call, taken, rfl⟩ := Event.unit_cases hsession
  · exact hs.sane thread session hkept
  · exact .inr (hanswers.2.2.1 _ rfl)
  · obtain ⟨htaken, hpooled, hworks⟩ := hanswers
    cases taken with
    | none => cases (hpooled rfl).1
    | some before =>
      obtain ⟨time, after, heq, works⟩ := hworks before rfl
      cases heq
      exact works.sane (hs.sane thread before htaken.symm)

theorem Run.orderly (run : Run s events t) (hs : s.Orderly) :
    t.Orderly ∧ ∀ thread, t.unit thread = events.foldl (Event.unit thread) (s.unit thread) := by
  induction run with
  | here => exact ⟨hs, fun _ => rfl⟩
  | step first rest ih =>
    obtain ⟨ht, hunit⟩ := ih (first.orderly hs)
    refine ⟨ht, fun thread => ?_⟩
    rw [hunit, (first.apart hs.apart thread).2, List.foldl_cons]

/-- Whose unit of work is whose, whatever the order of the calls and of their steps. -/
structure Custody (start : Floor) (events : List Event) (s : Floor) : Prop where
  unit : ∀ thread, s.unit thread = unitAfter events thread
  apart : ∀ thread, s.Apart thread
  sane : s.Sane
  answers : ∀ before event after, events = before ++ event :: after → ∃ t u,
    Run start before t ∧ Run u after s ∧ event.Answers (unitAfter before) t u

/-- Each thread has at most one unit of work, and it alone opens, uses and closes it. What a call
writes in it stays in its transaction, which only the thread itself can end; but when a call cannot
open its savepoint, the transaction is given up while the thread still has the unit. -/
theorem units_kept (free : p.held = []) (run : Run { pool := p } events s) :
    Custody { pool := p } events s := by
  have hnone : ∀ thread, ({ pool := p } : Floor).unit thread = none := fun thread => by
    rw [unit_idle rfl, free]
    rfl
  have hstart : ({ pool := p } : Floor).Orderly :=
    ⟨fun _ => apart_idle rfl, fun thread session h => by cases (hnone thread).symm.trans h⟩
  obtain ⟨hs, hunit⟩ := run.orderly hstart
  refine ⟨fun thread => (hunit thread).trans ?_, hs.apart, hs.sane, ?_⟩
  · rw [hnone]
    rfl
  · rintro before event after rfl
    obtain ⟨t, u, hbefore, first, hafter⟩ := run.at_event
    refine ⟨t, u, hbefore, hafter, ?_⟩
    have hhad : t.unit = unitAfter before := by
      funext thread
      rw [(Run.orderly hbefore hstart).2, hnone]
      rfl
    exact hhad ▸ first.answers

end

def one : Statistic :=
  { id := ⟨1, by decide⟩, entryType := .totalJobs, valueType := .raw, owner := none, value := 1
    recordedAt := .ofInstant .epoch }

def unwritten : Session := { transaction := some {}, depth := 1 }

def quietFloor (faults : List StatementFault) : Floor :=
  { pool := (Harness.emptyTables faults).app }

/-- A worker that works in its unit of work while another thread goes without. -/
theorem units_kept_apart :
    let second : Session :=
      { transaction := some { writes := [.addStatistic (.ofStatistic one)] }, depth := 1 }
    let events : List Event := [.passed, .began .worker (.ok unwritten),
      .began .worker (.error .alreadyActive), .passed, .passed,
      .called .main (.stats none) none none,
      .called .worker (.record one) (some unwritten) (some second), .passed,
      .closed .worker true (.ok ())]
    ∃ s, Run (quietFloor []) events s ∧ Custody (quietFloor []) events s := by
  intro second events
  have run : ∃ s, Run (quietFloor []) events s ∧ True := by
    refine Transcript.extend (.enter .worker rfl rfl) ?_
    refine Transcript.extend (.begin .worker .epoch rfl) ?_
    refine Transcript.extend (.refuse .worker rfl rfl) ?_
    refine Transcript.extend (.take .worker (.record one) rfl) ?_
    refine Transcript.extend (.take .main (.stats none) rfl) ?_
    refine Transcript.extend (@Step.call _ (.stats none) none .main .epoch rfl) ?_
    refine Transcript.extend (@Step.call _ (.record one) (some unwritten) .worker .epoch rfl) ?_
    refine Transcript.extend (@Step.release _ second .worker true rfl rfl) ?_
    refine Transcript.extend (@Step.close _ true second .worker .epoch rfl) ?_
    exact ⟨_, .here _, trivial⟩
  obtain ⟨s, run, -⟩ := run
  exact ⟨s, run, units_kept rfl run⟩

def noSavepoint : List StatementFault :=
  [{ start := "SAVEPOINT", error := ⟨"53200", "out of memory"⟩, times := 1 }]

def moveUp : StoreCall := .transition ⟨"k"⟩ { state := .running } .epoch .epoch

def doomed : Session := { transaction := some { isAborted := true }, queued := [.rollback] }

/-- When a savepoint cannot be opened in a unit of work, the thread has the unit as before, but what
it writes then is kept at once. -/
theorem unit_given_up :
    ∃ s, Run (quietFloor noSavepoint) [.passed, .began .worker (.ok unwritten), .passed,
        .called .worker moveUp (some unwritten) (some doomed), .passed,
        .called .worker (.record one) (some doomed) (some {})] s ∧
      s.pool.isActive .worker ∧
      (quietFloor noSavepoint).pool.database.tables.statistics.map (·.length) = some 0 ∧
      s.pool.database.tables.statistics.map (·.length) = some 1 := by
  refine Transcript.extend (.enter .worker rfl rfl) ?_
  refine Transcript.extend (.begin .worker .epoch rfl) ?_
  refine Transcript.extend (.take .worker moveUp rfl) ?_
  refine Transcript.extend (@Step.call _ moveUp (some unwritten) .worker .epoch rfl) ?_
  refine Transcript.extend (.take .worker (.record one) rfl) ?_
  refine Transcript.extend (@Step.call _ (.record one) (some doomed) .worker .epoch rfl) ?_
  exact ⟨_, .here _, rfl, rfl, rfl⟩

end DatabasePool

end JobEngine
