import JobEngine.Proofs.Refires
/-! The attempts of one logical fire come one at a time. Whatever disturbs them, each is an attempt
at the fire that the line began with, and has one refire more behind it than the attempt before. -/

namespace JobEngine

variable {σ η ν : Type}

namespace Traffic

/-- A line of attempts at this fire. -/
structure Succession (t : Traffic η ν) (x : Nat) (p : PendingFire) : Prop where
  counted : ∀ i d, (t.line x)[i]? = some d → d.taken.fire = { p with refireCount := i }
  next : ∀ q, t.Waits x q → q.fire = { p with refireCount := (t.line x).length }
  single : ∀ q, t.Waits x q → ∀ q', t.Waits x q' → q' = q
  alone : ∀ d ∈ t.line x, t.landings.get? d.number = none →
    (t.line x).getLast? = some d ∧ ∀ q, ¬t.Waits x q

section

variable {t t' : Traffic η ν} {x line : Nat} {p fire : PendingFire} {due now : Instant}
variable {d : Departure ν} {q : QueuedFire} {rest : List QueuedFire} {outcome : FireOutcome}

theorem Succession.frame (h : Succession t x p) (hline : t'.line x = t.line x)
    (hwaits : ∀ q, t'.Waits x q → t.Waits x q)
    (hopen : ∀ d ∈ t.line x, t'.landings.get? d.number = none → t.landings.get? d.number = none) :
    Succession t' x p where
  counted := by
    rw [hline]
    exact h.counted
  next q hq := by
    rw [hline]
    exact h.next q (hwaits q hq)
  single q hq q' hq' := h.single q (hwaits q hq) q' (hwaits q' hq')
  alone d hd hnone := by
    rw [hline] at hd ⊢
    obtain ⟨hlast, hidle⟩ := h.alone d hd (hopen d hd hnone)
    exact ⟨hlast, fun q hq => hidle q (hwaits q hq)⟩

theorem Succession.vacant (hline : t.line x = []) (hnone : ∀ q, ¬t.Waits x q) (p : PendingFire) :
    Succession t x p where
  counted i d hd := by simp [hline] at hd
  next q hq := absurd hq (hnone q)
  single q hq := absurd hq (hnone q)
  alone d hd := by simp [hline] at hd

theorem Succession.enqueue_next (h : Succession t x p) (ho : Orderly t)
    (hlanded : ∀ d ∈ t.line x, t.landings.get? d.number ≠ none) (hnone : ∀ q, ¬t.Waits x q)
    (hfire : fire = { p with refireCount := (t.line x).length }) :
    Succession (t.enqueue x due fire) x p := by
  have hline : (t.enqueue x due fire).line x = t.line x := ho.line_enqueue x due fire x
  have hnew : ∀ q, (t.enqueue x due fire).Waits x q →
      q = { due, seq := t.scheduler.seq + 1, fire } := fun q hq =>
    ((ho.waits_enqueue q).mp hq).elim And.right fun hold => absurd hold (hnone q)
  constructor
  · rw [hline]
    exact h.counted
  · intro q hq
    rw [hnew q hq, hline]
    exact hfire
  · intro q hq q' hq'
    rw [hnew q hq, hnew q' hq']
  · intro d hd hopen
    rw [hline] at hd
    exact absurd hopen (hlanded d hd)

theorem Succession.enqueue_other (h : Succession t x p) (ho : Orderly t) (hx : line ≠ x) :
    Succession (t.enqueue line due fire) x p := by
  apply h.frame (ho.line_enqueue line due fire x)
  · intro q hq
    exact ((ho.waits_enqueue q).mp hq).resolve_left fun hnew => hx hnew.1
  · exact fun _ _ hopen => hopen

theorem Orderly.line_unused (ho : Orderly t) :
    t.line (t.scheduler.seq + 1) = [] ∧ ∀ q, ¬t.Waits (t.scheduler.seq + 1) q := by
  constructor
  · apply List.eq_nil_iff_forall_not_mem.mpr
    intro d hd
    have hle := ho.line_le_seq hd
    omega
  · intro q hq
    have hle := ho.line_le q.seq
    have hgiven := ho.given q hq.1
    rw [hq.2] at hle
    omega

theorem Succession.enqueue_own (h : ∃ p, Succession t x p) (ho : Orderly t)
    (hfirst : fire.refireCount = 0) :
    ∃ p, Succession (t.enqueue (t.scheduler.seq + 1) due fire) x p := by
  by_cases hx : t.scheduler.seq + 1 = x
  · subst hx
    obtain ⟨hline, hnone⟩ := ho.line_unused
    have begun : Succession t (t.scheduler.seq + 1) fire := .vacant hline hnone fire
    refine ⟨fire, begun.enqueue_next ho ?_ hnone ?_⟩
    · simp [hline]
    · rw [hline, List.length_nil, ← hfirst]
  · obtain ⟨p, h⟩ := h
    exact ⟨p, h.enqueue_other ho hx⟩

theorem Succession.delete (h : Succession t x p) (key : JobKey) :
    Succession (t.delete key) x p :=
  h.frame rfl (fun _ hq => ⟨(List.mem_filter.mp hq.1).1, hq.2⟩) fun _ _ hopen => hopen

/-- The fire at the head of the queue is taken. If it is of this line, the next attempt begins. -/
theorem Succession.depart (h : Succession t x p) (ho : Orderly t)
    (hqueue : t.scheduler.queue = q :: rest) (hnumber : d.number = q.seq)
    (hfire : d.taken.fire = q.fire) : Succession ((t.withQueue rest).depart d) x p := by
  have hwaits := ho.waits_depart (d := d) (x := x) hqueue
  by_cases hx : t.lineOf q.seq = x
  · have hq : t.Waits x q := ⟨hqueue ▸ List.mem_cons_self, hx⟩
    have hline : ((t.withQueue rest).depart d).line x = t.line x ++ [d] :=
      line_depart_self (hnumber ▸ hx)
    have hnone : ∀ q', ¬((t.withQueue rest).depart d).Waits x q' := by
      intro q' hq'
      obtain ⟨hq', hne⟩ := (hwaits q').mp hq'
      exact hne (h.single q hq q' hq')
    constructor
    · intro i d' hd'
      rw [hline, List.getElem?_append] at hd'
      split at hd'
      · exact h.counted i d' hd'
      · next hi =>
        obtain ⟨hlt, hd'⟩ := List.getElem?_eq_some_iff.mp hd'
        rw [List.length_singleton] at hlt
        obtain rfl : i = (t.line x).length := by omega
        rw [← hd', List.getElem_singleton, hfire, h.next q hq]
    · exact fun q' hq' => absurd hq' (hnone q')
    · exact fun q' hq' => absurd hq' (hnone q')
    · intro d' hd' hopen
      rw [hline, List.mem_append, List.mem_singleton] at hd'
      obtain hbefore | rfl := hd'
      · exact absurd hq ((h.alone d' hbefore hopen).2 q)
      · exact ⟨by simp [hline], hnone⟩
  · apply h.frame (line_depart_of_ne (hnumber ▸ hx))
    · exact fun q' hq' => ((hwaits q').mp hq').1
    · exact fun _ _ hopen => hopen

theorem Succession.record (h : Succession t x p) :
    Succession (t.record d.number outcome now) x p := by
  refine h.frame rfl (fun _ hq => hq) fun d' _ hnone => ?_
  simp only [Traffic.record, Assoc.get?] at hnone
  split at hnone
  · cases hnone
  · exact hnone

theorem Succession.ended (h : Succession t x p) (hd : d ∈ t.line x)
    (hopen : t.landings.get? d.number = none) :
    ∀ d' ∈ t.line x, (t.record d.number outcome now).landings.get? d'.number ≠ none := by
  intro d' hd' hnone
  by_cases hsame : d'.number = d.number
  · simp [Traffic.record, Assoc.get?, hsame] at hnone
  · rw [get?_record_of_ne hsame] at hnone
    have hlast := (h.alone d hd hopen).1
    rw [(h.alone d' hd' hnone).1] at hlast
    exact hsame (congrArg Departure.number (Option.some.inj hlast))

theorem Succession.land (h : ∃ p, Succession t x p) (ho : Orderly t) (hd : d ∈ t.departures)
    (hopen : t.landings.get? d.number = none) :
    ∃ p, Succession (t.land d outcome now) x p := by
  obtain ⟨p, h⟩ := h
  have recorded : Succession (t.record d.number outcome now) x p := h.record
  have horderly : Orderly (t.record d.number outcome now) := ho.record hd
  obtain ⟨heq, -⟩ | ⟨-, ⟨due, -, heq⟩ | ⟨-, slot, -, heq⟩⟩ := ho.land_cases d outcome now
  · exact ⟨p, heq ▸ recorded⟩
  · rw [heq]
    by_cases hx : t.lineOf d.number = x
    · have hline : d ∈ t.line x := List.mem_filter.mpr ⟨hd, decide_eq_true hx⟩
      obtain ⟨hlast, hnone⟩ := h.alone d hline hopen
      rw [List.getLast?_eq_getElem?] at hlast
      have hpos := (List.getElem?_eq_some_iff.mp hlast).1
      have hcount : (t.line x).length - 1 + 1 = (t.line x).length := by omega
      rw [hx]
      refine ⟨p, recorded.enqueue_next horderly (h.ended hline hopen) hnone ?_⟩
      rw [h.counted _ d hlast]
      exact congrArg (fun n => { p with refireCount := n }) hcount
    · exact ⟨p, recorded.enqueue_other horderly hx⟩
  · rw [heq]
    exact Succession.enqueue_own ⟨p, recorded⟩ horderly rfl

variable {harness : Harness σ}

theorem Effect.succession (h : Effect harness t t') (ho : Orderly t)
    (ih : ∃ p, Succession t x p) : ∃ p, Succession t' x p := by
  cases h with
  | idle => exact ih
  | listened listeners matchers =>
    obtain ⟨p, ih⟩ := ih
    exact ⟨p, ih.frame rfl (fun _ hq => hq) fun _ _ hopen => hopen⟩
  | stored hhandler =>
    obtain ⟨p, ih⟩ := ih
    exact ⟨p, ih.frame rfl (fun _ hq => hq) fun _ _ hopen => hopen⟩
  | queued hstored hfirst hmanual => exact Succession.enqueue_own ih ho hfirst
  | @scheduled definition trigger hhandler hnew =>
    obtain ⟨p, ih⟩ := ih
    have hstore : Orderly (t.store definition.key ⟨definition, some trigger⟩) := ho.store hhandler
    have stored : Succession (t.store definition.key ⟨definition, some trigger⟩) x p :=
      ih.frame rfl (fun _ hq => hq) fun _ _ hopen => hopen
    exact Succession.enqueue_own ⟨p, stored⟩ hstore rfl
  | deleted key =>
    obtain ⟨p, ih⟩ := ih
    exact ⟨p, ih.delete key⟩
  | departed hqueue hdue hjob =>
    obtain ⟨p, ih⟩ := ih
    exact ⟨p, ih.depart ho hqueue rfl rfl⟩
  | landed hd hopen hending => exact Succession.land ih ho hd hopen

/-- All attempts of a line are at one fire, counted from zero. -/
theorem Reachable.succession (h : Reachable harness t) (x : Nat) : ∃ p, Succession t x p := by
  induction h with
  | start registry listeners matchers =>
    exact ⟨⟨default, 0, Dict.empty, default, .manual⟩, .vacant rfl (fun q hq => by cases hq.1) _⟩
  | next hreach step ih => exact (step.effect hreach.orderly).succession hreach.orderly ih

/-- Every attempt that has ended did so in one of the ways an attempt can end. -/
def Evaluated (harness : Harness σ) (t : Traffic η ν) : Prop :=
  ∀ d ∈ t.departures, ∀ outcome now, t.landings.get? d.number = some (outcome, now) →
    ∃ registry : Registry η, Ending harness registry d.taken outcome

theorem Evaluated.land (h : Evaluated harness t) (ho : Orderly t) (hd : d ∈ t.departures)
    (hending : Ending harness t.scheduler.registry d.taken outcome) :
    Evaluated harness (t.land d outcome now) := by
  intro d' hd' outcome' now' hlanded
  have hmem : d' ∈ t.departures := hd'
  by_cases hsame : d.number = d'.number
  · obtain rfl := ho.once d hd d' hmem hsame
    simp only [Traffic.land, Assoc.get?, ↓reduceIte, Option.some.injEq, Prod.mk.injEq] at hlanded
    obtain ⟨rfl, -⟩ := hlanded
    exact ⟨_, hending⟩
  · apply h d' hmem outcome' now'
    simpa [Traffic.land, Assoc.get?, hsame] using hlanded

theorem Evaluated.depart (h : Evaluated harness t) (ho : Orderly t)
    (hqueue : t.scheduler.queue = q :: rest) (hnumber : d.number = q.seq) :
    Evaluated harness ((t.withQueue rest).depart d) := by
  intro d' hd' outcome' now' hlanded
  rcases List.mem_append.mp hd' with hbefore | hnew
  · exact h d' hbefore outcome' now' hlanded
  · have hopen := ho.open_of_mem (hqueue ▸ List.mem_cons_self)
    rw [List.mem_singleton.mp hnew, hnumber] at hlanded
    exact absurd (hopen.symm.trans hlanded) nofun

theorem Reachable.evaluated (h : Reachable harness t) : Evaluated harness t := by
  induction h with
  | start registry listeners matchers => exact fun d hd => absurd hd List.not_mem_nil
  | next hreach step ih =>
    cases step.effect hreach.orderly with
    | idle | listened | stored | queued | scheduled | deleted => exact ih
    | departed hqueue hdue hjob => exact ih.depart hreach.orderly hqueue rfl
    | landed hd hopen hending => exact ih.land hreach.orderly hd hending

end

end Traffic

theorem Ending.delay_eq {harness : Harness σ} {registry : Registry η}
    {taken : TakenFire ν} {outcome : FireOutcome} {delay : Duration}
    (h : Ending harness registry taken outcome) (hdelay : outcome.delay? = some delay) :
    delay = harness.policy.backoff.delayFor
      (Nat.min (taken.fire.refireCount + 1) Backoff.maxAttempt) := by
  cases h with
  | noHandler unknown => cases hdelay
  | vetoed => cases hdelay
  | ran job fire host hattempt =>
    have answer := run_gives harness job fire host
    revert hdelay answer
    generalize (harness.run job fire host).1 = result
    intro hdelay answer
    obtain hfinal | ⟨e, rfl, hrefire, -⟩ := Traffic.final_or_refire answer
    · rw [hfinal.no_delay] at hdelay
      cases hdelay
    · rw [hattempt] at hrefire
      simp only [FireOutcome.delay?, DispatchError.refireDelay, hrefire, Option.some.injEq]
        at hdelay
      exact hdelay.symm

end JobEngine
