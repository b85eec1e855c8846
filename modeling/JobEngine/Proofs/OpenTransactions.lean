import JobEngine.Database.Statistics
import JobEngine.Proofs.Programs
/-! What is written inside an open transaction does not reach the tables, whatever fails there. The
programs of the stores leave the transaction around them open or give it up as a whole; none closes
it. -/

namespace JobEngine

variable {ε α β : Type}

def Statement.isInner : Statement → Bool
  | .begin | .commit | .rollback => false
  | _ => true

/-- There is a transaction, and nothing that is queued ends it. -/
structure Session.Sheltered (s : Session) : Prop where
  opened : s.transaction.isSome
  queued : ∀ st ∈ s.queued, st.isInner

namespace Connection

variable {c : Connection} {tables : Tables} {s : Statement} {n : Nat}

/-- The connection is in a transaction, and these are the tables that it does not reach. -/
structure Sheltered (tables : Tables) (c : Connection) : Prop where
  session : c.session.Sheltered
  tables : c.database.tables = tables

/-- A statement changes nothing in a session but its transaction. -/
theorem serve_session (s : Statement) (c : Connection) :
    ∃ t, (c.serve s).2.session = { c.session with transaction := t } := by
  have hfailed : ∃ t, (c.afterFailure s).session = { c.session with transaction := t } := by
    cases s <;> exact ⟨_, rfl⟩
  have hkeep : ∀ writes, ∃ t, (c.keep writes).session = { c.session with transaction := t } := by
    intro writes
    unfold keep
    split <;> exact ⟨_, rfl⟩
  unfold serve
  split
  · exact ⟨_, rfl⟩
  · split
    · exact hfailed
    · by_cases hplain : s.isPlain
      · rw [perform_plain hplain]
        split
        · exact hfailed
        · exact hkeep _
      · cases s with
        | commit =>
          unfold perform settleWrites
          simp only
          split <;> exact ⟨_, rfl⟩
        | begin => exact ⟨_, rfl⟩
        | rollback => exact ⟨_, rfl⟩
        | savepoint => exact ⟨_, rfl⟩
        | releaseSavepoint => exact ⟨_, rfl⟩
        | rollbackToSavepoint => exact ⟨_, rfl⟩
        | _ => exact absurd rfl hplain

@[simp] private theorem serve_depth (s : Statement) (c : Connection) :
    (c.serve s).2.session.depth = c.session.depth := by
  obtain ⟨t, h⟩ := serve_session s c
  rw [h]

@[simp] private theorem serve_queued (s : Statement) (c : Connection) :
    (c.serve s).2.session.queued = c.session.queued := by
  obtain ⟨t, h⟩ := serve_session s c
  rw [h]

theorem Sheltered.map (h : c.Sheltered tables) (f : Transaction → Transaction) :
    (c.withTransaction (·.map f)).Sheltered tables :=
  ⟨⟨(Option.isSome_map ..).trans h.session.opened, h.session.queued⟩, h.tables⟩

theorem Sheltered.keep (h : c.Sheltered tables) (writes : List Write) :
    (c.keep writes).Sheltered tables := by
  obtain ⟨t, ht⟩ := Option.isSome_iff_exists.mp h.session.opened
  unfold Connection.keep
  rw [ht]
  exact ⟨⟨rfl, h.session.queued⟩, h.tables⟩

theorem Sheltered.afterFailure (h : c.Sheltered tables) (hs : s.isInner) :
    (c.afterFailure s).Sheltered tables := by
  cases s <;> first | exact h.map _ | cases hs

theorem Sheltered.serve (h : c.Sheltered tables) (hs : s.isInner) :
    (c.serve s).2.Sheltered tables := by
  unfold Connection.serve
  split
  · exact h
  · split
    · have hfailed := h.afterFailure hs
      exact ⟨hfailed.session, hfailed.tables⟩
    · by_cases hplain : s.isPlain
      · rw [perform_plain hplain]
        split
        · exact h.afterFailure hs
        · exact h.keep _
      · cases s with
        | savepoint => exact h.map _
        | releaseSavepoint => exact h.map _
        | rollbackToSavepoint => exact h.map _
        | begin => cases hs
        | commit => cases hs
        | rollback => cases hs
        | _ => exact absurd rfl hplain

private theorem serve_rollback_tables (c : Connection) :
    (c.serve .rollback).2.database.tables = c.database.tables := by
  unfold serve
  split
  · rfl
  · split <;> rfl

def sendQueued (c : Connection) (s : Statement) : Connection :=
  let r := c.serve s
  { r.2 with session.unread := r.2.session.unread ++
      [match r.1 with
        | .ok _ => none
        | .error e => some e] }

theorem flush_eq (c : Connection) :
    c.flush = c.session.queued.foldl sendQueued { c with session.queued := [] } := rfl

private theorem flush_idle (h : c.session.queued = []) : c.flush = c := by
  rw [flush_eq, h]
  obtain ⟨d, ⟨transaction, depth, queued, unread⟩, time⟩ := c
  cases h
  rfl

private theorem leave_idle (h : c.session.queued = []) : c.leave = c.database := by
  unfold leave
  rw [flush_idle h]

private theorem flush_depth (c : Connection) :
    c.flush.session.depth = c.session.depth ∧ c.flush.session.queued = [] := by
  rw [flush_eq]
  refine List.foldlRecOn (motive := fun c' : Connection =>
    c'.session.depth = c.session.depth ∧ c'.session.queued = []) _ _ ⟨rfl, rfl⟩ ?_
  intro c' h s _
  exact ⟨(serve_depth s c').trans h.1, (serve_queued s c').trans h.2⟩

theorem Sheltered.flush (h : c.Sheltered tables) : c.flush.Sheltered tables := by
  have hnothing : Sheltered tables { c with session.queued := [] } :=
    ⟨⟨h.session.opened, fun _ hs => absurd hs List.not_mem_nil⟩, h.tables⟩
  rw [flush_eq]
  refine List.foldlRecOn (motive := Sheltered tables) _ _ hnothing ?_
  intro c' h' s hs
  have hserved := h'.serve (h.session.queued s hs)
  exact ⟨⟨hserved.session.opened, hserved.session.queued⟩, hserved.tables⟩

theorem settle_flush (c : Connection) :
    ∃ unread, c.settle.2 = { c.flush with session.unread := unread } := by
  unfold settle
  simp only
  split <;> exact ⟨_, rfl⟩

theorem settle_depth (c : Connection) :
    c.settle.2.session.depth = c.session.depth ∧ c.settle.2.session.queued = [] := by
  obtain ⟨unread, h⟩ := settle_flush c
  rw [h]
  exact flush_depth c

theorem Sheltered.settle (h : c.Sheltered tables) : c.settle.2.Sheltered tables := by
  obtain ⟨unread, hsettle⟩ := settle_flush c
  rw [hsettle]
  exact ⟨⟨h.flush.session.opened, h.flush.session.queued⟩, h.flush.tables⟩

theorem execute_depth (s : Statement) (c : Connection) :
    (c.execute s).2.session.depth = c.session.depth ∧ (c.execute s).2.session.queued = [] := by
  obtain ⟨hdepth, hqueued⟩ := settle_depth c
  unfold execute
  generalize c.settle = r at hdepth hqueued
  obtain ⟨r, c'⟩ := r
  cases r with
  | error e => exact ⟨hdepth, hqueued⟩
  | ok x => exact ⟨(serve_depth s c').trans hdepth, (serve_queued s c').trans hqueued⟩

theorem Sheltered.execute (h : c.Sheltered tables) (hs : s.isInner) :
    (c.execute s).2.Sheltered tables := by
  have hsettled := h.settle
  unfold Connection.execute
  generalize c.settle = r at hsettled
  obtain ⟨r, c'⟩ := r
  cases r with
  | error e => exact hsettled
  | ok x => exact hsettled.serve hs

theorem Sheltered.queue (h : c.Sheltered tables) (hs : s.isInner) :
    (c.queue s).Sheltered tables := by
  refine ⟨⟨h.session.opened, fun st hst => ?_⟩, h.tables⟩
  obtain hst | hst := List.mem_append.mp hst
  · exact h.session.queued st hst
  · exact List.mem_singleton.mp hst ▸ hs

theorem Sheltered.withDepth (h : c.Sheltered tables) (n : Nat) :
    (c.withDepth n).Sheltered tables :=
  ⟨⟨h.session.opened, h.session.queued⟩, h.tables⟩

/-- So many transactions are open, and if there are tables to be spared, the connection is in one of
them that does not reach these. -/
structure Stands (n : Nat) (spared : Option Tables) (c : Connection) : Prop where
  depth : c.session.depth = n
  sheltered : ∀ tables ∈ spared, c.Sheltered tables

namespace Stands

variable {spared : Option Tables}

theorem execute (h : c.Stands n spared) (hs : s.isInner) : (c.execute s).2.Stands n spared :=
  ⟨(execute_depth s c).1.trans h.depth, fun _ ht => (h.sheltered _ ht).execute hs⟩

theorem abandon (h : c.Stands (n + 1) spared) (hn : spared.isSome → n ≠ 0) :
    c.abandon.Stands n spared := by
  unfold Connection.abandon
  rw [h.depth]
  cases n with
  | zero => exact ⟨rfl, fun tables ht => absurd rfl (hn (Option.isSome_of_mem ht))⟩
  | succ n => exact ⟨rfl, fun tables ht => ((h.sheltered _ ht).queue rfl).withDepth _⟩

theorem begin (h : c.Stands n spared) (hn : spared.isSome → n ≠ 0) (hone : n ≤ 1) :
    c.begin.1 = .ok () ∧ c.begin.2.Stands (n + 1) spared ∨
      (∃ e, c.begin.1 = .error e) ∧ c.begin.2.session.depth = 0 := by
  have hsettled : (c.queue (if n = 0 then .begin else .savepoint)).settle.2.Stands n spared := by
    refine ⟨(settle_depth _).1.trans h.depth, fun tables ht => ?_⟩
    rw [if_neg (hn (Option.isSome_of_mem ht))]
    exact ((h.sheltered tables ht).queue rfl).settle
  unfold Connection.begin
  simp only
  rw [h.depth]
  generalize (c.queue (if n = 0 then .begin else .savepoint)).settle = r at hsettled ⊢
  obtain ⟨r, c'⟩ := r
  cases r with
  | ok x => exact .inl ⟨rfl, rfl, fun _ ht => (hsettled.sheltered _ ht).withDepth _⟩
  | error e =>
    refine .inr ⟨⟨e, rfl⟩, ?_⟩
    have hdepth : c'.session.depth = n := hsettled.depth
    change c'.abandon.session.depth = 0
    unfold Connection.abandon
    rw [hdepth]
    obtain rfl | rfl := Nat.le_one_iff_eq_zero_or_eq_one.mp hone
    · exact hdepth
    · rfl

theorem close (h : c.Stands (n + 1) spared) (hn : spared.isSome → n ≠ 0) (whole : Statement)
    {nested : Statement} (hnested : nested.isInner) :
    (c.close whole nested).1 = .ok () ∧ (c.close whole nested).2.Stands n spared ∨
      (∃ e, (c.close whole nested).1 = .error e) ∧
        (c.close whole nested).2.Stands (n + 1) spared := by
  have hexecuted : (c.execute (if n = 0 then whole else nested)).2.Stands (n + 1) spared := by
    refine ⟨(execute_depth _ c).1.trans h.depth, fun tables ht => ?_⟩
    rw [if_neg (hn (Option.isSome_of_mem ht))]
    exact (h.sheltered tables ht).execute hnested
  unfold Connection.close
  rw [h.depth]
  simp only
  generalize c.execute (if n = 0 then whole else nested) = r at hexecuted ⊢
  obtain ⟨r, c'⟩ := r
  cases r with
  | ok reply => exact .inl ⟨rfl, rfl, fun _ ht => (hexecuted.sheltered _ ht).withDepth _⟩
  | error e => exact .inr ⟨⟨e, rfl⟩, hexecuted⟩

end Stands

theorem serve_failed {e : DatabaseError} (hfailed : (c.serve s).1 = .error e) :
    (c.serve s).2.database.tables = c.database.tables := by
  have hafter : (c.afterFailure s).database.tables = c.database.tables := by cases s <;> rfl
  unfold serve at hfailed ⊢
  split at hfailed
  next haborted => rw [if_pos haborted]
  next hlive =>
    rw [if_neg hlive]
    split at hfailed
    · exact hafter
    · by_cases hplain : s.isPlain
      · rw [perform_plain hplain] at hfailed ⊢
        split at hfailed
        · exact hafter
        · cases hfailed
      · cases s <;> first | cases hfailed | exact absurd rfl hplain

theorem abandon_whole (hdepth : c.session.depth = 1) :
    c.abandon = (c.queue .rollback).withDepth 0 := by
  unfold abandon
  rw [hdepth]
  rfl

private theorem abandon_leave (hdepth : c.session.depth = 1) (hqueued : c.session.queued = []) :
    c.abandon.leave.tables = c.database.tables := by
  unfold leave
  rw [abandon_whole hdepth, flush_eq]
  change (List.foldl sendQueued _ (c.session.queued ++ [.rollback])).database.tables = _
  rw [hqueued]
  exact serve_rollback_tables _

section

variable (h : c.Stands 1 (some tables))

include h

private theorem execute_failed {e : DatabaseError} (hfailed : (c.execute s).1 = .error e) :
    (c.execute s).2.database.tables = tables := by
  have hsettled := (h.sheltered tables rfl).settle
  unfold execute at hfailed ⊢
  generalize c.settle = r at hsettled hfailed ⊢
  obtain ⟨r, c'⟩ := r
  cases r with
  | error e => exact hsettled.tables
  | ok x => exact (serve_failed hfailed).trans hsettled.tables

private theorem execute_rollback : (c.execute .rollback).2.database.tables = tables := by
  have hsettled := (h.sheltered tables rfl).settle
  unfold execute
  generalize c.settle = r at hsettled ⊢
  obtain ⟨r, c'⟩ := r
  cases r with
  | error e => exact hsettled.tables
  | ok x => exact (serve_rollback_tables c').trans hsettled.tables

theorem close_failed (whole nested : Statement) (e : DatabaseError)
    (hfailed : (c.close whole nested).1 = .error e) :
    (c.close whole nested).2.abandon.leave.tables = tables := by
  have hexecute : ∀ e, (c.execute whole).1 = .error e →
      (c.execute whole).2.database.tables = tables := fun e he => execute_failed h he
  obtain ⟨hdepth, hqueued⟩ := execute_depth whole c
  unfold close at hfailed ⊢
  rw [h.depth] at hfailed ⊢
  simp only [↓reduceIte] at hfailed ⊢
  generalize c.execute whole = r at hexecute hdepth hqueued hfailed ⊢
  obtain ⟨r, c'⟩ := r
  cases r with
  | ok reply => cases hfailed
  | error e => exact (abandon_leave (hdepth.trans h.depth) hqueued).trans (hexecute e rfl)

theorem rollback_tables (hdone : c.rollback.1 = .ok ()) : c.rollback.2.leave.tables = tables := by
  have hexecute := execute_rollback h
  obtain ⟨-, hqueued⟩ := execute_depth .rollback c
  unfold rollback close at hdone ⊢
  rw [h.depth] at hdone ⊢
  simp only [↓reduceIte] at hdone ⊢
  generalize c.execute .rollback = r at hexecute hqueued hdone ⊢
  obtain ⟨r, c'⟩ := r
  cases r with
  | error e => cases hdone
  | ok reply =>
    have hleave : (c'.withDepth 0).leave = c'.database := leave_idle hqueued
    exact (congrArg Database.tables hleave).trans hexecute

end

end Connection

namespace Query

open Connection (Stands)

variable {n : Nat} {spared : Option Tables}

/-- The program closes no transaction, and opens none that it does not close. -/
def Level (q : Query ε α) : Prop :=
  ∀ n spared c, Stands n spared c → Stands n spared (q.run.run c).2

/-- The program leaves the transaction around it open or gives it up, and then it stays given up. -/
structure Contained (q : Query ε α) : Prop where
  inside : ∀ tables c, Stands 1 (some tables) c →
    (q.run.run c).2.session.depth = 0 ∨ Stands 1 (some tables) (q.run.run c).2
  outside : ∀ c : Connection, c.session.depth = 0 → (q.run.run c).2.session.depth = 0

inductive Plain : {α : Type} → Query ε α → Prop where
  | check {α : Type} (r : Except ε α) : (check r).Plain
  | ask (onError : DatabaseError → ε) {s : Statement} (hs : s.isInner) : (ask onError s).Plain
  | bind {α β : Type} {q : Query ε α} {f : α → Query ε β} (hq : q.Plain)
      (hf : ∀ a, (f a).Plain) : (q >>= f).Plain

namespace Plain

theorem pure (a : α) : (pure a : Query ε α).Plain := .check (.ok a)

theorem throw (e : ε) : (throw e : Query ε α).Plain := .check (.error e)

theorem level {q : Query ε α} (hq : q.Plain) : q.Level := by
  induction hq with
  | check r =>
    intro n spared c h
    rwa [run_check]
  | ask onError hs =>
    intro n spared c h
    unfold Query.ask
    rw [run_step]
    exact h.execute hs
  | @bind _ _ q f _ _ hq hf =>
    intro n spared c h
    have hfirst := hq n spared c h
    rw [run_bind]
    generalize q.run.run c = r at hfirst ⊢
    obtain ⟨r, c'⟩ := r
    cases r with
    | error e => exact hfirst
    | ok a => exact hf a n spared c' hfirst

end Plain

namespace Level

theorem contained {q : Query ε α} (hq : q.Level) : q.Contained where
  inside tables c h := .inr (hq 1 (some tables) c h)
  outside c hdepth := (hq 0 none c ⟨hdepth, nofun⟩).depth

end Level

def closing (onError : String → DatabaseError → ε) (body : Query ε (Except ε α)) :
    Query ε (Except ε α) := do
  let r ← body
  match r with
  | .ok _ => step (onError "commit_transaction") Connection.commit
  | .error _ => step (onError "rollback") Connection.rollback
  return r

private theorem atomically_eq (onError : String → DatabaseError → ε) (body : Query ε (Except ε α)) :
    atomically onError body = (do
      step (onError "begin_transaction") Connection.begin
      let closed ← result (closing onError body)
      match closed with
      | .ok r => check r
      | .error e =>
        modify Connection.abandon
        throw e) := rfl

theorem atomically_run (onError : String → DatabaseError → ε) (body : Query ε (Except ε α))
    (c : Connection) : (atomically onError body).run.run c = match c.begin with
      | (.error e, c') => (.error (onError "begin_transaction" e), c')
      | (.ok (), c') =>
        match (closing onError body).run.run c' with
        | (.ok r, last) => (r, last)
        | (.error e, last) => (.error e, last.abandon) := by
  rw [atomically_eq, run_bind, run_step]
  generalize c.begin = begun
  obtain ⟨x, c'⟩ := begun
  cases x with
  | error e => rfl
  | ok x =>
    simp only [Except.mapError]
    rw [run_bind, run_result]
    generalize (closing onError body).run.run c' = closed
    obtain ⟨r, last⟩ := closed
    cases r with
    | ok r => exact run_check r last
    | error e => rfl

section

variable (onError : String → DatabaseError → ε) {body : Query ε (Except ε α)} {c : Connection}
variable (hbody : body.Level) (hn : spared.isSome → n ≠ 0)

include hbody hn

theorem closing_stands (h : c.Stands (n + 1) spared) :
    (∃ r, ((closing onError body).run.run c).1 = .ok r) ∧
        ((closing onError body).run.run c).2.Stands n spared ∨
      (∃ e, ((closing onError body).run.run c).1 = .error e) ∧
        ((closing onError body).run.run c).2.Stands (n + 1) spared := by
  have hstep : ∀ (r : Except ε α) (operation : String) {whole nested : Statement},
      nested.isInner → ∀ c : Connection, c.Stands (n + 1) spared →
      let q : Query ε (Except ε α) := do
        step (onError operation) (Connection.close whole nested)
        return r
      (q.run.run c).1 = .ok r ∧ (q.run.run c).2.Stands n spared ∨
        (∃ e, (q.run.run c).1 = .error e) ∧ (q.run.run c).2.Stands (n + 1) spared := by
    intro r operation whole nested hnested c h
    have hclose := h.close hn whole hnested
    simp only
    rw [run_bind, run_step]
    generalize c.close whole nested = closed at hclose ⊢
    obtain ⟨x, c'⟩ := closed
    obtain ⟨rfl, hc'⟩ | ⟨⟨e, rfl⟩, hc'⟩ := hclose
    · exact .inl ⟨rfl, hc'⟩
    · exact .inr ⟨⟨_, rfl⟩, hc'⟩
  have hran := hbody (n + 1) spared c h
  unfold closing
  rw [run_bind]
  generalize body.run.run c = ran at hran ⊢
  obtain ⟨r, c'⟩ := ran
  cases r with
  | error e => exact .inr ⟨⟨e, rfl⟩, hran⟩
  | ok r =>
    cases r with
    | ok a => exact (hstep _ _ rfl c' hran).imp_left (.imp_left fun h => ⟨_, h⟩)
    | error e => exact (hstep _ _ rfl c' hran).imp_left (.imp_left fun h => ⟨_, h⟩)

theorem atomically_stands (h : c.Stands n spared) (hone : n ≤ 1) :
    ((atomically onError body).run.run c).2.session.depth = 0 ∨
      ((atomically onError body).run.run c).2.Stands n spared := by
  have hbegin := h.begin hn hone
  rw [atomically_run]
  generalize c.begin = begun at hbegin ⊢
  obtain ⟨x, c'⟩ := begun
  obtain ⟨rfl, hc'⟩ | ⟨⟨e, rfl⟩, hc'⟩ := hbegin
  · have hclosing := closing_stands onError hbody hn hc'
    simp only
    generalize (closing onError body).run.run c' = closed at hclosing ⊢
    obtain ⟨r, last⟩ := closed
    obtain ⟨⟨r, rfl⟩, hlast⟩ | ⟨⟨e, rfl⟩, hlast⟩ := hclosing
    · exact .inr hlast
    · exact .inr (hlast.abandon hn)
  · exact .inl hc'

end

theorem contained_atomically (onError : String → DatabaseError → ε)
    {body : Query ε (Except ε α)} (hbody : body.Level) : (atomically onError body).Contained where
  inside tables c h := atomically_stands onError hbody (fun _ => Nat.one_ne_zero) h (Nat.le_refl 1)
  outside c hdepth := by
    have hfree : c.Stands 0 none := ⟨hdepth, nofun⟩
    have hnone : (none : Option Tables).isSome → 0 ≠ 0 := fun h => Bool.noConfusion h
    obtain hover | hover := atomically_stands onError hbody hnone hfree (Nat.zero_le 1)
    · exact hover
    · exact hover.depth

end Query

/-! The programs of the stores. -/

namespace DatabaseLedger

open Query (Plain)

theorem ask_plain (operation : String) {s : Statement} (hs : s.isInner) :
    (ask operation s).Plain := Plain.ask _ hs

theorem create_plain (status : JobStatus) : (create status).Plain :=
  (Plain.check _).bind fun _ => (Plain.ask _ rfl).bind fun _ => .pure _

theorem load_plain (key : JobKey) : (load key).Plain :=
  (ask_plain _ rfl).bind fun _ => .check _

theorem merge_plain (status : JobStatus) : (merge status).Plain := by
  refine (Plain.check _).bind fun row => (ask_plain _ rfl).bind fun reply =>
    (Plain.check _).bind fun merged => ?_
  cases merged with
  | some merged => exact .pure _
  | none =>
    refine (load_plain _).bind fun stored => ?_
    cases stored with
    | some stored => exact .pure _
    | none => exact .throw _

theorem change_plain (key : JobKey) (update : StatusUpdate) (now later : Instant) :
    (change key update now later).Plain := by
  refine (ask_plain _ rfl).bind fun reply => (Plain.check _).bind fun found => ?_
  cases found with
  | none => exact .pure _
  | some status =>
    simp only
    cases update.apply status now with
    | error refusal => exact .pure _
    | ok moved =>
      exact (Plain.check _).bind fun row => (ask_plain _ rfl).bind fun _ => .pure _

theorem transition_contained (key : JobKey) (update : StatusUpdate) (now later : Instant) :
    (transition key update now later).Contained :=
  Query.contained_atomically failure (change_plain key update now later).level

theorem list_plain (q : StatusQuery) : (list q).Plain :=
  (ask_plain _ rfl).bind fun _ => .check _

theorem stats_plain (owner : Option TenantKey) : (stats owner).Plain :=
  (ask_plain _ rfl).bind fun _ => .check _

end DatabaseLedger

namespace DatabaseStatistics

open Query (Plain)

theorem record_plain (statistic : Statistic) : (record statistic).Plain :=
  (Plain.ask _ rfl).bind fun _ => .pure _

theorem history_plain (entry : EntryType) (owner : Option TenantKey) (limit : Nat) :
    (history entry owner limit).Plain :=
  (Plain.ask _ rfl).bind fun _ => .check _

end DatabaseStatistics

end JobEngine
