import JobEngine.Proofs.Atomicity
/-! What becomes of a transaction while the stores work in it. It goes on: what was written stays
written until the transaction ends. It is given up only where a store cannot open a savepoint. And a
connection that is given back is in no transaction. -/

namespace JobEngine

variable {ε α β : Type}

namespace Transaction

variable {f g : Transaction → Transaction}

/-- These writes are in the transaction, and stay in it whatever becomes of its savepoints. -/
def Keeps (base : List Write) (t : Transaction) : Prop :=
  ∀ writes ∈ t.writes :: t.saved, base <+: writes

/-- A change that takes back nothing but what was written since a savepoint. -/
def Onward (f : Transaction → Transaction) : Prop := ∀ base t, t.Keeps base → (f t).Keeps base

private theorem onward_id : Onward id := fun _ _ h => h

theorem Onward.comp (hg : Onward g) (hf : Onward f) : Onward (g ∘ f) := fun base t h =>
  hg base _ (hf base t h)

private theorem onward_save : Onward save := fun base t h writes hw => by
  obtain rfl | hsaved := List.mem_cons.mp hw
  · exact h _ List.mem_cons_self
  · exact h writes hsaved

private theorem onward_release : Onward release := fun base t h writes hw => by
  obtain rfl | hsaved := List.mem_cons.mp hw
  · exact h _ List.mem_cons_self
  · exact h writes (List.mem_cons_of_mem _ (List.mem_of_mem_tail hsaved))

private theorem onward_revert : Onward revert := fun base t h => by
  obtain ⟨written, saved, isAborted⟩ := t
  cases saved with
  | nil => exact h
  | cons => exact fun writes hw => h writes (List.mem_cons_of_mem _ hw)

private theorem onward_abort : Onward fun t => { t with isAborted := true } := fun _ _ h => h

private theorem onward_write (more : List Write) :
    Onward fun t => { t with writes := t.writes ++ more } :=
  fun base t h writes hw => by
    obtain rfl | hsaved := List.mem_cons.mp hw
    · exact (h _ List.mem_cons_self).trans (List.prefix_append ..)
    · exact h writes (List.mem_cons_of_mem _ hsaved)

end Transaction

namespace Connection

variable {c c' c'' : Connection} {s : Statement} {tables : Tables} {n : Nat}

def Inner (c : Connection) : Prop := ∀ s ∈ c.session.queued, s.isInner

/-- The transaction of one connection has gone on to that of the other; or neither has any. -/
def Onward (c c' : Connection) : Prop :=
  ∃ f, Transaction.Onward f ∧ c'.session.transaction = c.session.transaction.map f

theorem Onward.of_eq (h : c'.session.transaction = c.session.transaction) : c.Onward c' :=
  ⟨id, Transaction.onward_id, by rw [h, Option.map_id_fun, id_eq]⟩

theorem Onward.trans (h : c.Onward c') (h' : c'.Onward c'') : c.Onward c'' := by
  obtain ⟨f, hf, heq⟩ := h
  obtain ⟨g, hg, heq'⟩ := h'
  exact ⟨g ∘ f, hg.comp hf, by rw [heq', heq, Option.map_map]⟩

theorem Onward.none (h : c.Onward c') (hnone : c.session.transaction = none) :
    c'.session.transaction = none := by
  obtain ⟨f, -, heq⟩ := h
  rw [heq, hnone, Option.map_none]

private theorem onward_keep (writes : List Write) (c : Connection) : c.Onward (c.keep writes) := by
  refine ⟨_, Transaction.onward_write writes, ?_⟩
  unfold keep
  split
  next h => rw [h]; rfl
  next h => rw [h]; rfl

private theorem onward_afterFailure (hs : s.isInner) (c : Connection) :
    c.Onward (c.afterFailure s) := by
  refine ⟨_, Transaction.onward_abort, ?_⟩
  cases s <;> first | rfl | cases hs

theorem onward_serve (hs : s.isInner) (c : Connection) : c.Onward (c.serve s).2 := by
  unfold serve
  split
  · exact .of_eq rfl
  · split
    · exact (onward_afterFailure hs c).trans (.of_eq rfl)
    · by_cases hplain : s.isPlain
      · rw [perform_plain hplain]
        split
        · exact onward_afterFailure hs c
        · exact onward_keep _ c
      · cases s with
        | savepoint => exact ⟨_, Transaction.onward_save, rfl⟩
        | releaseSavepoint => exact ⟨_, Transaction.onward_release, rfl⟩
        | rollbackToSavepoint => exact ⟨_, Transaction.onward_revert, rfl⟩
        | begin => cases hs
        | commit => cases hs
        | rollback => cases hs
        | _ => exact absurd rfl hplain

private theorem onward_flush (hc : c.Inner) : c.Onward c.flush := by
  rw [flush_eq]
  refine List.foldlRecOn (motive := c.Onward) _ _ (.of_eq rfl) ?_
  intro c' h s hs
  exact (h.trans (onward_serve (hc s hs) c')).trans (.of_eq rfl)

private theorem onward_settle (hc : c.Inner) : c.Onward c.settle.2 := by
  obtain ⟨unread, h⟩ := settle_flush c
  rw [h]
  exact (onward_flush hc).trans (.of_eq rfl)

private theorem inner_of_queued (h : c.session.queued = []) : c.Inner := fun s hs => by
  rw [h] at hs
  cases hs

private theorem inner_execute (s : Statement) (c : Connection) : (c.execute s).2.Inner :=
  inner_of_queued (execute_depth s c).2

private theorem onward_execute (hc : c.Inner) (hs : s.isInner) : c.Onward (c.execute s).2 := by
  have hsettled := onward_settle hc
  unfold execute
  generalize c.settle = r at hsettled
  obtain ⟨r, c'⟩ := r
  cases r with
  | error e => exact hsettled
  | ok x => exact hsettled.trans (onward_serve hs c')

theorem Inner.queue (hc : c.Inner) (hs : s.isInner) : (c.queue s).Inner := fun st hst => by
  obtain hst | hst := List.mem_append.mp hst
  · exact hc st hst
  · exact List.mem_singleton.mp hst ▸ hs

/-- Once what is queued has been sent, no transaction is open. -/
def Over (c : Connection) : Prop := c.flush.session.transaction = none

theorem over_of_none (hc : c.Inner) (hnone : c.session.transaction = none) : c.Over :=
  (onward_flush hc).none hnone

theorem serve_ends (hs : s = .commit ∨ s = .rollback) (c : Connection) :
    (c.serve s).2.session.transaction = none := by
  have hends : ends s = true := by obtain rfl | rfl := hs <;> rfl
  unfold serve
  rw [hends, Bool.not_true, Bool.and_false, if_neg Bool.false_ne_true]
  split
  · obtain rfl | rfl := hs <;> rfl
  · obtain rfl | rfl := hs
    · unfold perform settleWrites
      simp only
      split
      next h => exact h
      · rfl
    · rfl

private theorem over_abandon (hdepth : c.session.depth = 1) : c.abandon.Over := by
  unfold Over
  rw [abandon_whole hdepth, flush_eq]
  change (List.foldl sendQueued _ (c.session.queued ++ [.rollback])).session.transaction = none
  rw [List.foldl_append]
  exact serve_ends (.inr rfl) _

def handedBack (r : Except DatabaseError Unit × Connection) : Connection :=
  match r.1 with
  | .ok () => r.2
  | .error _ => r.2.abandon

theorem over_close (hdepth : c.session.depth = 1) {whole : Statement}
    (hwhole : whole = .commit ∨ whole = .rollback) (nested : Statement) :
    (handedBack (c.close whole nested)).Over := by
  obtain ⟨hkept, hqueued⟩ := execute_depth whole c
  have hserved : (c.execute whole).1.isOk → (c.execute whole).2.session.transaction = none := by
    unfold execute
    generalize c.settle = r
    obtain ⟨r, c'⟩ := r
    cases r with
    | error e => exact nofun
    | ok x => exact fun _ => serve_ends hwhole c'
  unfold close
  rw [hdepth]
  simp only [↓reduceIte]
  generalize c.execute whole = r at hkept hqueued hserved ⊢
  obtain ⟨r, c'⟩ := r
  cases r with
  | error e => exact over_abandon (hkept.trans hdepth)
  | ok reply => exact over_of_none (inner_of_queued hqueued) (hserved rfl)

theorem onward_abandon (c : Connection) : c.Onward c.abandon := by
  unfold abandon
  split <;> exact .of_eq rfl

theorem onward_begin (hdepth : c.session.depth = n + 1) (hc : c.Inner) : c.Onward c.begin.2 := by
  have hsettled : c.Onward (c.queue .savepoint).settle.2 :=
    Onward.trans (.of_eq rfl) (onward_settle (hc.queue rfl))
  unfold begin
  rw [hdepth]
  simp only [Nat.add_one_ne_zero, ↓reduceIte]
  generalize (c.queue .savepoint).settle = r at hsettled ⊢
  obtain ⟨r, c'⟩ := r
  cases r with
  | ok x => exact hsettled.trans (.of_eq rfl)
  | error e => exact hsettled.trans (onward_abandon c')

theorem Stands.handedBack {spared : Option Tables} (h : c.Stands (n + 1) spared)
    (hn : spared.isSome → n ≠ 0) (whole : Statement) {nested : Statement}
    (hnested : nested.isInner) : (handedBack (c.close whole nested)).Stands n spared := by
  have hclose := h.close hn whole hnested
  generalize c.close whole nested = r at hclose ⊢
  obtain ⟨r, c'⟩ := r
  obtain ⟨rfl, hc'⟩ | ⟨⟨e, rfl⟩, hc'⟩ := hclose
  · exact hc'
  · exact hc'.abandon hn

theorem begin_given_up (h : c.Stands 1 (some tables)) {e : DatabaseError}
    (hbegin : c.begin.1 = .error e) :
    c.begin.2.session.depth = 0 ∧ c.begin.2.session.queued = [.rollback] ∧
      c.begin.2.database.tables = tables := by
  have hsheltered := ((h.sheltered tables rfl).queue rfl : (c.queue .savepoint).Sheltered _).settle
  obtain ⟨hdepth, hqueued⟩ := settle_depth (c.queue .savepoint)
  replace hdepth : (c.queue .savepoint).settle.2.session.depth = 1 := hdepth.trans h.depth
  unfold begin at hbegin ⊢
  rw [h.depth] at hbegin ⊢
  simp only [Nat.one_ne_zero, ↓reduceIte] at hbegin ⊢
  generalize (c.queue .savepoint).settle = r at hsheltered hdepth hqueued hbegin ⊢
  obtain ⟨r, c'⟩ := r
  cases r with
  | ok x => cases hbegin
  | error e =>
    change c'.abandon.session.depth = 0 ∧ c'.abandon.session.queued = [.rollback] ∧
      c'.abandon.database.tables = tables
    rw [abandon_whole hdepth]
    exact ⟨rfl, congrArg (· ++ [Statement.rollback]) hqueued, hsheltered.tables⟩

theorem onward_close (hdepth : c.session.depth = n + 2) (hc : c.Inner) (whole : Statement)
    {nested : Statement} (hnested : nested.isInner) :
    c.Onward (handedBack (c.close whole nested)) := by
  have hexecuted := onward_execute hc hnested
  unfold close
  rw [hdepth]
  simp only [Nat.add_one_ne_zero, ↓reduceIte]
  generalize c.execute nested = r at hexecuted ⊢
  obtain ⟨r, c'⟩ := r
  cases r with
  | ok reply => exact hexecuted.trans (.of_eq rfl)
  | error e => exact hexecuted.trans (onward_abandon c')

end Connection

namespace Query

open Connection (onward_begin)

variable {c : Connection} {tables : Tables}

def leaves (q : Query ε α) (c : Connection) : Connection := (q.run.run c).2

theorem Plain.onward {q : Query ε α} (hq : q.Plain) (hc : c.Inner) :
    (q.leaves c).Inner ∧ c.Onward (q.leaves c) := by
  induction hq generalizing c with
  | check r =>
    unfold leaves
    rw [run_check]
    exact ⟨hc, .of_eq rfl⟩
  | ask onError hs =>
    unfold leaves Query.ask
    rw [run_step]
    exact ⟨Connection.inner_execute _ c, Connection.onward_execute hc hs⟩
  | @bind _ _ q f _ _ hq hf =>
    have hfirst := hq hc
    unfold leaves at hfirst ⊢
    rw [run_bind]
    generalize q.run.run c = r at hfirst ⊢
    obtain ⟨r, c'⟩ := r
    obtain ⟨hinner, honward⟩ := hfirst
    cases r with
    | error e => exact ⟨hinner, honward⟩
    | ok a => exact (hf a hinner).imp_right honward.trans

section

variable (onError : String → DatabaseError → ε) {body : Query ε (Except ε α)}

/-- A body that is over is closed, one way or another, unless it failed. -/
theorem closing_leaves (body : Query ε (Except ε α)) (c : Connection) :
    (∃ e, (closing onError body).run.run c = (.error e, body.leaves c)) ∨
      ∃ whole nested : Statement, (whole = .commit ∨ whole = .rollback) ∧ nested.isInner ∧
        ((closing onError body).run.run c).1.isOk = ((body.leaves c).close whole nested).1.isOk ∧
        (closing onError body).leaves c = ((body.leaves c).close whole nested).2 := by
  have hstep : ∀ (r : Except ε α) (operation : String) (whole nested : Statement) (c : Connection),
      let q : Query ε (Except ε α) := do
        step (onError operation) (Connection.close whole nested)
        return r
      (q.run.run c).1.isOk = (c.close whole nested).1.isOk ∧
        q.leaves c = (c.close whole nested).2 := by
    intro r operation whole nested c
    unfold leaves
    simp only
    rw [run_bind, run_step]
    generalize c.close whole nested = closed
    obtain ⟨x, c'⟩ := closed
    cases x <;> exact ⟨rfl, rfl⟩
  unfold closing leaves
  rw [run_bind]
  generalize body.run.run c = ran
  obtain ⟨r, c'⟩ := ran
  cases r with
  | error e => exact .inl ⟨e, rfl⟩
  | ok r =>
    refine .inr ?_
    cases r with
    | ok a => exact ⟨.commit, .releaseSavepoint, .inl rfl, rfl, hstep _ _ _ _ c'⟩
    | error e => exact ⟨.rollback, .rollbackToSavepoint, .inr rfl, rfl, hstep _ _ _ _ c'⟩

theorem atomically_leaves {c' : Connection} (hbegin : c.begin = (.ok (), c')) :
    (atomically onError body).leaves c = (body.leaves c').abandon ∨
      ∃ whole nested : Statement, (whole = .commit ∨ whole = .rollback) ∧ nested.isInner ∧
        (atomically onError body).leaves c =
          Connection.handedBack ((body.leaves c').close whole nested) := by
  have hclosing := closing_leaves onError body c'
  unfold leaves at hclosing ⊢
  rw [atomically_run, hbegin]
  simp only
  generalize (closing onError body).run.run c' = closed at hclosing ⊢
  obtain ⟨r, last⟩ := closed
  obtain ⟨e, heq⟩ | ⟨whole, nested, hwhole, hnested, hanswer, hlast⟩ := hclosing
  · cases heq
    exact .inl rfl
  · refine .inr ⟨whole, nested, hwhole, hnested, ?_⟩
    simp only at hanswer hlast
    subst hlast
    generalize Connection.close whole nested _ = done at hanswer ⊢
    obtain ⟨x, c''⟩ := done
    cases r <;> cases x <;> first | rfl | cases hanswer

private theorem atomically_unopened {e : DatabaseError} (h : c.begin.1 = .error e) :
    (atomically onError body).leaves c = c.begin.2 := by
  unfold leaves
  rw [atomically_run]
  generalize c.begin = r at h ⊢
  obtain ⟨r, c'⟩ := r
  cases h
  rfl

theorem atomically_onward (hbody : body.Plain) (h : c.Stands 1 (some tables))
    (hbegin : c.begin.1 = .ok ()) :
    ((atomically onError body).leaves c).Stands 1 (some tables) ∧
      c.Onward ((atomically onError body).leaves c) := by
  have hn : (some tables).isSome → 1 ≠ 0 := fun _ => Nat.one_ne_zero
  have hopened : c.begin.2.Stands 2 (some tables) := by
    obtain ⟨-, hstands⟩ | ⟨⟨e, herror⟩, -⟩ := h.begin hn (Nat.le_refl 1)
    · exact hstands
    · cases hbegin.symm.trans herror
  have hbegun : c.Onward c.begin.2 := onward_begin h.depth (h.sheltered _ rfl).session.queued
  have hinner := hbody.level 2 _ _ hopened
  obtain ⟨hqueued, honward⟩ := hbody.onward (hopened.sheltered _ rfl).session.queued
  have hreached := hbegun.trans honward
  obtain heq | ⟨whole, nested, -, hnested, heq⟩ :=
    atomically_leaves onError (Prod.ext hbegin rfl : c.begin = (.ok (), c.begin.2))
  · rw [heq]
    exact ⟨hinner.abandon hn, hreached.trans (Connection.onward_abandon _)⟩
  · rw [heq]
    exact ⟨hinner.handedBack hn whole hnested,
      hreached.trans (Connection.onward_close hinner.depth hqueued whole hnested)⟩

theorem atomically_over (hbody : body.Plain) (d : Database) (time : Instant) :
    ((atomically onError body).leaves (.fresh d time)).Over := by
  cases hstrike : StatementFault.strike .begin d.faults with
  | some r =>
    have hbegin : (Connection.fresh d time).begin =
        (.error r.1, .fresh { d with faults := r.2 } time) := by
      rw [Connection.begin_eq, hstrike]
    rw [atomically_unopened onError (congrArg Prod.fst hbegin), hbegin]
    exact Connection.over_of_none (fun _ hs => absurd hs List.not_mem_nil) rfl
  | none =>
    have hbegin : (Connection.fresh d time).begin = (.ok (), .inside d time []) := by
      rw [Connection.begin_eq, hstrike]
    have hdepth : (body.leaves (.inside d time [])).session.depth = 1 :=
      (hbody.level 1 none _ ⟨rfl, nofun⟩).depth
    obtain heq | ⟨whole, nested, hwhole, -, heq⟩ := atomically_leaves onError hbegin
    · rw [heq]
      exact Connection.over_abandon hdepth
    · rw [heq]
      exact Connection.over_close hdepth hwhole nested

end

end Query

inductive StoreCall where
  | create (row : JobStatus)
  | load (key : JobKey)
  | merge (row : JobStatus)
  | transition (key : JobKey) (update : StatusUpdate) (now later : Instant)
  | list (wish : StatusQuery)
  | stats (owner : Option TenantKey)
  | record (statistic : Statistic)
  | history (entry : EntryType) (owner : Option TenantKey) (limit : Nat)

namespace StoreCall

variable {call : StoreCall} {c : Connection} {tables : Tables}

def on : StoreCall → Connection → Connection
  | .create row => (DatabaseLedger.create row).leaves
  | .load key => (DatabaseLedger.load key).leaves
  | .merge row => (DatabaseLedger.merge row).leaves
  | .transition key update now later => (DatabaseLedger.transition key update now later).leaves
  | .list wish => (DatabaseLedger.list wish).leaves
  | .stats owner => (DatabaseLedger.stats owner).leaves
  | .record statistic => (DatabaseStatistics.record statistic).leaves
  | .history entry owner limit => (DatabaseStatistics.history entry owner limit).leaves

def nests : StoreCall → Bool
  | .transition .. => true
  | _ => false

theorem on_cases (call : StoreCall) :
    (call.nests = false ∧ ∃ (ε α : Type) (q : Query ε α), q.Plain ∧ call.on = q.leaves) ∨
      call.nests = true ∧ ∃ (ε α : Type) (onError : String → DatabaseError → ε)
        (body : Query ε (Except ε α)), body.Plain ∧ call.on = (body.atomically onError).leaves := by
  cases call with
  | create row => exact .inl ⟨rfl, _, _, _, DatabaseLedger.create_plain row, rfl⟩
  | load key => exact .inl ⟨rfl, _, _, _, DatabaseLedger.load_plain key, rfl⟩
  | merge row => exact .inl ⟨rfl, _, _, _, DatabaseLedger.merge_plain row, rfl⟩
  | transition key update now later =>
    exact .inr ⟨rfl, _, _, _, _, DatabaseLedger.change_plain key update now later, rfl⟩
  | list wish => exact .inl ⟨rfl, _, _, _, DatabaseLedger.list_plain wish, rfl⟩
  | stats owner => exact .inl ⟨rfl, _, _, _, DatabaseLedger.stats_plain owner, rfl⟩
  | record statistic => exact .inl ⟨rfl, _, _, _, DatabaseStatistics.record_plain statistic, rfl⟩
  | history entry owner limit =>
    exact .inl ⟨rfl, _, _, _, DatabaseStatistics.history_plain entry owner limit, rfl⟩

/-- The call needs a transaction of its own and cannot open it. -/
def Balks (call : StoreCall) (c : Connection) : Prop := call.nests ∧ ∃ e, c.begin.1 = .error e

theorem goes_on (h : c.Stands 1 (some tables)) (hopens : ¬call.Balks c) :
    (call.on c).Stands 1 (some tables) ∧ c.Onward (call.on c) := by
  obtain ⟨-, _, _, q, hq, heq⟩ | ⟨hnests, _, _, onError, body, hbody, heq⟩ := call.on_cases
  · rw [heq]
    exact ⟨hq.level 1 _ c h, (hq.onward (h.sheltered _ rfl).session.queued).2⟩
  · have hbegin : c.begin.1 = .ok () := by
      cases hbegin : c.begin.1 with
      | ok x => rfl
      | error e => exact absurd ⟨hnests, e, hbegin⟩ hopens
    rw [heq]
    exact Query.atomically_onward onError hbody h hbegin

theorem gives_up (h : c.Stands 1 (some tables)) (hbalks : call.Balks c) :
    (call.on c).session.depth = 0 ∧ (call.on c).session.queued = [.rollback] ∧
      (call.on c).database.tables = tables := by
  obtain ⟨hnests, e, hbegin⟩ := hbalks
  obtain ⟨hplain, -⟩ | ⟨-, _, _, onError, body, hbody, heq⟩ := call.on_cases
  · cases hplain.symm.trans hnests
  · rw [heq, Query.atomically_unopened onError hbegin]
    exact Connection.begin_given_up h hbegin

theorem stays_given_up (hdepth : c.session.depth = 0) : (call.on c).session.depth = 0 := by
  obtain ⟨-, _, _, q, hq, heq⟩ | ⟨-, _, _, onError, body, hbody, heq⟩ := call.on_cases
  · rw [heq]
    exact hq.level.contained.outside c hdepth
  · rw [heq]
    exact (Query.contained_atomically onError hbody.level).outside c hdepth

theorem over_fresh (call : StoreCall) (d : Database) (time : Instant) :
    (call.on (.fresh d time)).Over := by
  obtain ⟨-, _, _, q, hq, heq⟩ | ⟨-, _, _, onError, body, hbody, heq⟩ := call.on_cases
  · have hidle : (Connection.fresh d time).Inner := fun _ hs => absurd hs List.not_mem_nil
    obtain ⟨hinner, honward⟩ := hq.onward hidle
    rw [heq]
    exact Connection.over_of_none hinner (honward.none rfl)
  · rw [heq]
    exact Query.atomically_over onError hbody d time

end StoreCall

end JobEngine
