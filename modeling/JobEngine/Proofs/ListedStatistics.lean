import JobEngine.Proofs.Listing
import JobEngine.Proofs.Refinement
/-! The order in which recorded statistics are listed, from the newest to the oldest, and what the
programs of the statistic store come to on a connection where no statement fails but by its own
doing. -/

namespace JobEngine

@[simp] theorem EntryType.ofName_name (entry : EntryType) : ofName entry.name = .ok entry := by
  cases entry <;> rfl

@[simp] theorem EntryType.name_inj {a b : EntryType} : a.name = b.name ↔ a = b := by
  refine ⟨fun h => ?_, congrArg name⟩
  have hof := ofName_name a
  rw [h, ofName_name] at hof
  exact (Except.ok.inj hof).symm

@[simp] theorem ValueType.ofName_name (value : ValueType) : ofName value.name = .ok value := by
  cases value <;> rfl

namespace Statistic

structure Kept (s : Statistic) : Prop where
  owner : ∀ o ∈ s.owner, ∃ text, TenantKey.ofText text = .ok o
  time : Stamp.ofInstant s.recordedAt.stored = s.recordedAt

def isOf (entry : EntryType) (owner : Option TenantKey) (s : Statistic) : Bool :=
  s.entryType = entry && s.owner = owner

def newestFirst (stats : List Statistic) : List Statistic :=
  stats.mergeSort fun a b => b.recordedAt ≤ a.recordedAt

variable {s : Statistic} {stats : List Statistic}

theorem Kept.toStatistic (h : s.Kept) : (StatisticRow.ofStatistic s).toStatistic = .ok s := by
  unfold StatisticRow.toStatistic StatisticRow.ofStatistic
  simp only [EntryType.ofName_name, ValueType.ofName_name, StatusRow.ofColumn_owner h.owner,
    Except.mapError, bind, Except.bind, h.time]
  rfl

theorem newestFirst_perm (stats : List Statistic) : (newestFirst stats).Perm stats :=
  List.mergeSort_perm _ _

theorem newestFirst_pairwise (distinct : (stats.map (·.recordedAt)).Nodup) :
    (newestFirst stats).Pairwise fun a b => b.recordedAt < a.recordedAt := by
  have hsorted : (newestFirst stats).Pairwise fun a b => decide (b.recordedAt ≤ a.recordedAt) := by
    apply List.pairwise_mergeSort
    · intro a b c hab hbc
      exact decide_eq_true (Int.le_trans (of_decide_eq_true hbc) (of_decide_eq_true hab))
    · intro a b
      rw [Bool.or_eq_true, decide_eq_true_eq, decide_eq_true_eq]
      exact Int.le_total _ _
  have hdistinct : ((newestFirst stats).map (·.recordedAt)).Nodup :=
    ((newestFirst_perm stats).map _).nodup_iff.mpr distinct
  refine List.Pairwise.imp₂ (fun a b hle hne => ?_) hsorted (List.pairwise_map.mp hdistinct)
  have hrank : b.recordedAt.rank ≠ a.recordedAt.rank := fun heq =>
    hne (Stamp.rank_inj.mp heq).symm
  exact Int.lt_iff_le_and_ne.mpr ⟨of_decide_eq_true hle, hrank⟩

def Listed (stats : List Statistic) (entry : EntryType) (owner : Option TenantKey) (limit : Nat)
    (listed : List Statistic) : Prop :=
  ∃ all : List Statistic, all.Perm (stats.filter (isOf entry owner)) ∧
    (all.Pairwise fun a b => b.recordedAt < a.recordedAt) ∧ listed = all.take limit

variable {entry : EntryType} {owner : Option TenantKey} {limit : Nat}
variable {stats' listed listed' : List Statistic}

theorem listed_newestFirst (times : (stats.map (·.recordedAt)).Nodup) (entry : EntryType)
    (owner : Option TenantKey) (limit : Nat) : Listed stats entry owner limit
      ((newestFirst (stats.filter (isOf entry owner))).take limit) := by
  have hsub : ((stats.filter (isOf entry owner)).map (·.recordedAt)).Sublist
      (stats.map (·.recordedAt)) := List.filter_sublist.map _
  exact ⟨_, newestFirst_perm _, newestFirst_pairwise (times.sublist hsub), rfl⟩

theorem Listed.perm (h : Listed stats entry owner limit listed) (hperm : stats.Perm stats') :
    Listed stats' entry owner limit listed := by
  obtain ⟨all, hall, hnewest, hlisted⟩ := h
  exact ⟨all, hall.trans (hperm.filter _), hnewest, hlisted⟩

theorem Listed.unique (h : Listed stats entry owner limit listed)
    (h' : Listed stats' entry owner limit listed')
    (hsame : (stats.filter (isOf entry owner)).Perm (stats'.filter (isOf entry owner))) :
    listed = listed' := by
  obtain ⟨all, hall, hnewest, rfl⟩ := h
  obtain ⟨all', hall', hnewest', rfl⟩ := h'
  have heq : all = all' :=
    List.Perm.eq_of_pairwise
      (fun a b _ _ hab hba => absurd (Int.lt_trans hab hba) (Int.lt_irrefl _)) hnewest hnewest' (hall.trans (hsame.trans hall'.symm))
  rw [heq]

end Statistic

namespace Tables

variable {stats : List Statistic}

/-- What a table lists is what the statistics are in the order of their times. -/
theorem history_rows (kept : ∀ s ∈ stats, s.Kept) (entry : EntryType) (owner : Option TenantKey)
    (limit : Nat) :
    history (stats.map .ofStatistic) entry.name (owner.map (·.text)) limit =
      ((Statistic.newestFirst (stats.filter (Statistic.isOf entry owner))).take limit).map
        .ofStatistic := by
  have howner : ∀ o : Option TenantKey, o.map (·.text) = owner.map (·.text) ↔ o = owner := by
    intro o
    cases o <;> cases owner <;> simp
  have hfilter : (stats.map StatisticRow.ofStatistic).filter (fun r =>
      r.entryType = entry.name && r.owner = owner.map (·.text)) =
        (stats.filter (Statistic.isOf entry owner)).map .ofStatistic := by
    rw [List.filter_map]
    congr 2
    funext s
    simp only [Function.comp_apply, StatisticRow.ofStatistic, Statistic.isOf, EntryType.name_inj,
      howner]
  have hsort : ((stats.filter (Statistic.isOf entry owner)).map StatisticRow.ofStatistic).mergeSort
      (fun a b => b.recordedAt ≤ a.recordedAt) =
        (Statistic.newestFirst (stats.filter (Statistic.isOf entry owner))).map .ofStatistic := by
    unfold Statistic.newestFirst
    rw [List.map_mergeSort]
    intro a ha b hb
    have htimes : b.recordedAt ≤ a.recordedAt ↔ b.recordedAt.stored ≤ a.recordedAt.stored := by
      rw [← Stamp.ofInstant_le, (kept a (List.mem_of_mem_filter ha)).time,
        (kept b (List.mem_of_mem_filter hb)).time]
    exact decide_eq_decide.mpr htimes
  unfold history
  simp only [hfilter, hsort, List.map_take]

end Tables

namespace Connection

variable {c : Connection} {s : Statement} {reply : Reply} {writes : List Write}

structure Calm (c : Connection) : Prop where
  quiet : c.database.Quiet
  live : c.isAborted = false
  queued : c.session.queued = []
  unread : c.session.unread = []

theorem Calm.settle (h : c.Calm) : c.settle = (.ok (), c) := by
  obtain ⟨database, ⟨transaction, depth, queued, unread⟩, time⟩ := c
  obtain rfl : queued = [] := h.queued
  obtain rfl : unread = [] := h.unread
  rfl

theorem Calm.execute (h : c.Calm) (hs : s.isPlain)
    (hanswer : c.view.answer c.time s = .ok (reply, writes)) :
    c.execute s = (.ok reply, c.keep writes) := by
  unfold Connection.execute
  rw [h.settle]
  change c.serve s = _
  rw [serve_quiet h.quiet h.live, perform_plain hs, hanswer]
  simp only [h.quiet.nullColumn]

end Connection

namespace DatabaseStatistics

variable {c : Connection} {stats : List Statistic} {s : Statistic}

theorem mapM_decode (kept : ∀ s ∈ stats, s.Kept) :
    ((stats.map StatisticRow.ofStatistic).map some).mapM decode = .ok stats := by
  induction stats with
  | nil => rfl
  | cons s rest ih =>
    have hrest := ih fun r hr => kept r (List.mem_cons_of_mem s hr)
    have hs : decode (some (.ofStatistic s)) = .ok s := (kept s List.mem_cons_self).toStatistic
    simp only [List.map_cons, List.mapM_cons, hs, hrest]
    rfl

theorem record_run (h : c.Calm)
    (hrows : c.view.statistics = some (stats.map StatisticRow.ofStatistic))
    (hnew : ∀ r ∈ stats, r.id ≠ s.id) :
    (record s).run.run c = (.ok (), c.keep [.addStatistic (.ofStatistic s)]) := by
  have hid : (stats.map StatisticRow.ofStatistic).any (·.id = s.id) = false := by
    rw [List.any_map, List.any_eq_false]
    exact fun r hr hsame => hnew r hr (of_decide_eq_true hsame)
  have hanswer : c.view.answer c.time (.insertStatistic (.ofStatistic s)) =
      .ok (.done, [.addStatistic (.ofStatistic s)]) := by
    simp only [Tables.answer, Tables.statisticTable, hrows]
    change (if (stats.map StatisticRow.ofStatistic).any (·.id = s.id) then _ else _) = _
    rw [hid]
    rfl
  unfold record
  rw [Query.run_bind, Query.ask, Query.run_step, h.execute rfl hanswer]
  rfl

theorem history_run (h : c.Calm)
    (hrows : c.view.statistics = some (stats.map StatisticRow.ofStatistic))
    (kept : ∀ s ∈ stats, s.Kept) (entry : EntryType) (owner : Option TenantKey) (limit : Nat) :
    (history entry owner limit).run.run c =
      (.ok ((Statistic.newestFirst (stats.filter (Statistic.isOf entry owner))).take limit),
        c.keep []) := by
  have hanswer : c.view.answer c.time
      (.loadHistory entry.name (owner.map (·.text)) limit) =
        .ok (.statistics ((((Statistic.newestFirst (stats.filter
          (Statistic.isOf entry owner))).take limit).map StatisticRow.ofStatistic).map some),
            []) := by
    simp only [Tables.answer, Tables.statisticTable, hrows]
    change Except.ok _ = _
    rw [Tables.history_rows kept]
  have hlisted : ∀ s ∈ (Statistic.newestFirst (stats.filter
      (Statistic.isOf entry owner))).take limit, s.Kept := fun s hs => by
    have hmem := (Statistic.newestFirst_perm _).subset (List.mem_of_mem_take hs)
    exact kept s (List.mem_of_mem_filter hmem)
  unfold history
  rw [Query.run_bind, Query.ask, Query.run_step, h.execute rfl hanswer]
  simp only [Except.mapError, Query.run_check, Reply.statisticRows, mapM_decode hlisted]

end DatabaseStatistics

end JobEngine
