import JobEngine.Proofs.Cleanup
import JobEngine.Proofs.Units
import Mathlib.Logic.Function.Basic
/-! Runs within runs, on any number of threads. Of each run two steps count, the calls of its unit
of work before and after its body, and between any two steps anything may happen: a thread may begin
and end other runs in the body of one, and other threads take their steps. Main statement: whatever
happens, each run leaves its thread with a unit open or not as it found it, and the counts of units
tell what became of the runs. -/

namespace JobEngine

structure Undertaking (σ : Type) where
  harness : Harness σ
  owns : Bool
  before : Bool

def Undertaking.enabled (x : Undertaking σ) : Bool := x.harness.unitOfWork.isSome

structure PastRun where
  opened : Bool
  ended : Except Stop Unit
  before : Bool
  after : Bool

def PastRun.discards (r : PastRun) : Bool := r.opened && !r.ended.isOk

/-- Threads at work, each with its runs that are under way, the innermost first. -/
structure Crew (σ : Type) where
  host : Host σ
  under : ThreadName → List (Undertaking σ) := fun _ => []
  past : List PastRun := []

namespace Crew

variable {σ : Type} {p : Part σ ThreadUnits} {t : ThreadName}

def units (p : Part σ ThreadUnits) (w : Crew σ) : ThreadUnits := p.get w.host.app

def begin (p : Part σ ThreadUnits) (w : Crew σ) (t : ThreadName) (harness : Harness σ) : Crew σ :=
  let r := harness.unitOfWork.begin w.host
  let x : Undertaking σ := { harness, owns := r.1, before := (w.units p).isActive t }
  { w with host := r.2, under := Function.update w.under t (x :: w.under t) }

def finish (p : Part σ ThreadUnits) (w : Crew σ) (t : ThreadName) (x : Undertaking σ)
    (rest : List (Undertaking σ)) (ended : Except Stop Unit) : Crew σ :=
  let host :=
    if ended.isOk then (x.harness.commit x.owns w.host).2 else (x.harness.rollback x.owns w.host).2
  let run : PastRun :=
    { opened := x.owns, ended, before := x.before, after := (p.get host.app).isActive t }
  { host, under := Function.update w.under t rest, past := run :: w.past }

/-- What a thread can do: touch no units, begin a run, or end the innermost of its runs. -/
inductive Step (p : Part σ ThreadUnits) : Crew σ → Crew σ → Prop where
  | act {α : Type} {a : Act σ α} (w : Crew σ) (spares : p.Spares a) :
      Step p w { w with host := (a w.host).2 }
  | begin {t : ThreadName} {harness : Harness σ} (w : Crew σ) (hthread : harness.OnThread p t) :
      Step p w (w.begin p t harness)
  | finish {t : ThreadName} {x : Undertaking σ} {rest : List (Undertaking σ)} (w : Crew σ)
      (hunder : w.under t = x :: rest) (ended : Except Stop Unit) :
      Step p w (w.finish p t x rest ended)

inductive Reaches (p : Part σ ThreadUnits) (start : Crew σ) : Crew σ → Prop where
  | start : Reaches p start start
  | next {mid last : Crew σ} : Reaches p start mid → Step p mid last → Reaches p start last

theorem Reaches.trans {start mid last : Crew σ} (front : Reaches p start mid)
    (back : Reaches p mid last) : Reaches p start last := by
  induction back with
  | start => exact front
  | next _ step ih => exact ih.next step

/-- The runs of a thread under way, from when it had a unit open or not until it now has. Each found
the thread as the next one around it had left it, and opened a unit when it could. -/
inductive Nests (p : Part σ ThreadUnits) (t : ThreadName) (base : Bool) :
    List (Undertaking σ) → Bool → Prop where
  | nil : Nests p t base [] base
  | cons {x : Undertaking σ} {rest : List (Undertaking σ)} (hthread : x.harness.OnThread p t)
      (howns : x.owns = (x.enabled && !x.before)) (hrest : Nests p t base rest x.before) :
      Nests p t base (x :: rest) (x.enabled || x.before)

structure Sound (p : Part σ ThreadUnits) (start : ThreadUnits) (w : Crew σ) : Prop where
  balanced : (w.units p).Balanced
  nests : ∀ t, Nests p t (start.isActive t) (w.under t) ((w.units p).isActive t)
  aborted : (w.units p).aborted = start.aborted + w.past.countP PastRun.discards
  steady : ∀ r ∈ w.past, r.after = r.before

variable {start : ThreadUnits} {w w' : Crew σ}

section

variable (lawful : ∀ u a, p.get (p.put u a) = u)

include lawful

theorem Sound.begin (h : Sound p start w) {harness : Harness σ} (hthread : harness.OnThread p t) :
    Sound p start (w.begin p t harness) := by
  obtain ⟨howns, hbegin⟩ := hthread.begin_units lawful w.host
  have hunits : (w.begin p t harness).units p = (w.units p).openedBy t _ := hbegin
  have idle : (harness.unitOfWork.begin w.host).1 → (w.units p).isActive t = false := by
    intro hopens
    rw [howns, Bool.and_eq_true, Bool.not_eq_true'] at hopens
    exact hopens.2
  constructor
  · rw [hunits]
    exact h.balanced.openedBy idle
  · intro k
    rw [hunits, ThreadUnits.isActive_openedBy idle]
    by_cases hk : k = t
    · subst hk
      have hunder : (w.begin p k harness).under k = _ := Function.update_self ..
      have hnow : ((w.units p).isActive k || (harness.unitOfWork.begin w.host).1 && k == k) =
          (harness.unitOfWork.isSome || (w.units p).isActive k) := by
        rw [howns, beq_self_eq_true, Bool.and_true]
        change (_ || (_ && !(w.units p).isActive k)) = _
        cases (w.units p).isActive k <;> simp
      rw [hunder, hnow]
      exact .cons hthread howns (h.nests k)
    · have hunder : (w.begin p t harness).under k = w.under k := Function.update_of_ne hk ..
      rw [hunder, beq_false_of_ne hk, Bool.and_false, Bool.or_false]
      exact h.nests k
  · rw [hunits, ThreadUnits.aborted_openedBy idle]
    exact h.aborted
  · exact h.steady

theorem Sound.finish (h : Sound p start w) {x : Undertaking σ} {rest : List (Undertaking σ)}
    (hunder : w.under t = x :: rest) (ended : Except Stop Unit) :
    Sound p start (w.finish p t x rest ended) := by
  have hnests := h.nests t
  rw [hunder] at hnests
  generalize hnow : (w.units p).isActive t = now at hnests
  cases hnests with
  | cons hthread howns hrest =>
    have enabled : x.owns → x.harness.unitOfWork.isSome := by
      intro hopened
      rw [howns, Bool.and_eq_true] at hopened
      exact hopened.1
    have active : x.owns → (w.units p).isActive t := by
      intro hopened
      rw [hnow, Bool.or_eq_true]
      exact .inl (enabled hopened)
    have hunits : (w.finish p t x rest ended).units p =
        (w.units p).closedBy t x.owns ended.isOk := by
      cases ended with
      | ok _ => exact hthread.commit_turns lawful enabled w.host
      | error stop => exact hthread.rollback_turns lawful enabled w.host
    have hafter : ((w.finish p t x rest ended).units p).isActive t = x.before := by
      rw [hunits, ThreadUnits.isActive_closedBy active h.balanced, hnow, howns]
      cases x.before <;> simp
    constructor
    · rw [hunits]
      exact h.balanced.closedBy active
    · intro k
      by_cases hk : k = t
      · subst hk
        have hleft : (w.finish p k x rest ended).under k = rest := Function.update_self ..
        rw [hleft, hafter]
        exact hrest
      · have hleft : (w.finish p t x rest ended).under k = w.under k := Function.update_of_ne hk ..
        rw [hleft, hunits, ThreadUnits.isActive_closedBy active h.balanced, beq_false_of_ne hk,
          Bool.and_false, Bool.not_false, Bool.and_true]
        exact h.nests k
    · rw [hunits, ThreadUnits.aborted_closedBy active, h.aborted, Nat.add_assoc]
      change _ = start.aborted + List.countP _ (_ :: w.past)
      rw [List.countP_cons]
      rfl
    · exact List.forall_mem_cons.mpr ⟨hafter, h.steady⟩

theorem Step.sound (step : Step p w w') (h : Sound p start w) : Sound p start w' := by
  cases step with
  | act w spares =>
    have hunits : units p { w with host := _ } = w.units p := spares w.host
    constructor
    · rw [hunits]
      exact h.balanced
    · rw [hunits]
      exact h.nests
    · rw [hunits]
      exact h.aborted
    · exact h.steady
  | begin w hthread => exact h.begin lawful hthread
  | finish w hunder ended => exact h.finish lawful hunder ended

theorem Reaches.sound {first : Crew σ} (run : Reaches p first w) (h : Sound p start first) :
    Sound p start w := by
  induction run with
  | start => exact h
  | next _ step ih => exact step.sound lawful ih

end

/-- What the code of a thread can be, where it touches units only by running jobs: the bodies of
these may run jobs in turn. -/
inductive Runs (p : Part σ ThreadUnits) (t : ThreadName) : {α : Type} → Act σ α → Prop where
  | spares {α : Type} {a : Act σ α} (ha : p.Spares a) : Runs p t a
  | bind {α β : Type} {a : Act σ α} {f : α → Act σ β} (ha : Runs p t a)
      (hf : ∀ x, Runs p t (f x)) : Runs p t (a >>= f)
  | run {harness : Harness σ} {job : Job σ} (hthread : harness.OnThread p t)
      (hbody : ∀ context, Runs p t (job.body context).execute) (fire : FireContext) :
      Runs p t (harness.run job fire)

theorem Reaches.act {first : Crew σ} (run : Reaches p first w) {α : Type} {a : Act σ α}
    (ha : p.Spares a) : Reaches p first { w with host := (a w.host).2 } := run.next (.act w ha)

theorem wrapUp_reaches {x : Undertaking σ} {rest : List (Undertaking σ)}
    (hthread : x.harness.OnThread p t) (hunder : w.under t = x :: rest) (job : Job σ) (run : JobRun)
    (started : Instant) (ended : Except Stop Unit) (events : Outbox) :
    ∃ w', Reaches p w w' ∧
      w'.host = (x.harness.wrapUp job run started x.owns ended events w.host).2 ∧
      w'.under = Function.update w.under t rest := by
  have kind := p.spares_composes
  cases ended with
  | ok y =>
    have hfinish : p.Spares run.finish := kind.still fun _ => rfl
    let ended : Crew σ := { w with host := (run.finish w.host).2 }
    have front : Reaches p w ended := Reaches.start.act hfinish
    have closed := front.next (.finish ended hunder (.ok y))
    have back := closed.act (kind.depart hthread.leave hthread.publish job (run.finish w.host).1
      started events (x.harness.commit x.owns (run.finish w.host).2).1)
    exact ⟨_, back, rfl, rfl⟩
  | error stop =>
    let failed : Crew σ := { w with host := (x.harness.retreat job run stop events w.host).2 }
    have front : Reaches p w failed :=
      Reaches.start.act (kind.retreat hthread.leave job run stop events)
    have closed := front.next (.finish failed hunder (.error stop))
    have hreport : p.Spares (do Harness.reportTime job started; Act.leaveSpan) :=
      kind.bind (kind.reportTime started) fun _ => kind.still fun _ => rfl
    exact ⟨_, closed.act hreport, rfl, rfl⟩

/-- Such code takes a crew through its steps, and no run is left under way. -/
theorem Runs.reaches {α : Type} {a : Act σ α} (ha : Runs p t a) (w : Crew σ) :
    ∃ w', Reaches p w w' ∧ w'.host = (a w.host).2 ∧ w'.under = w.under := by
  induction ha generalizing w with
  | spares ha => exact ⟨_, Reaches.start.act ha, rfl, rfl⟩
  | @bind _ _ a f _ _ iha ihf =>
    obtain ⟨mid, front, hmid, hunder⟩ := iha w
    obtain ⟨last, back, hlast, hsame⟩ := ihf (a w.host).1 mid
    refine ⟨last, front.trans back, ?_, hsame.trans hunder⟩
    rw [hlast, hmid]
    rfl
  | @run harness job hthread _ fire ihbody =>
    let arrival := harness.arrive job fire w.host
    let here : Crew σ := { w with host := arrival.2 }
    let begun := here.begin p t harness
    let x : Undertaking σ :=
      { harness, owns := (harness.unitOfWork.begin here.host).1
        before := (here.units p).isActive t }
    let context : JobContext :=
      { run := arrival.1.1, data := fire.data, context := .ofRun arrival.1.1 }
    let ending := (job.body context).execute begun.host
    have harrive := p.spares_composes.arrive hthread.enter job fire
    have hbegin : Reaches p w begun := (Reaches.start.act harrive).next (.begin here hthread)
    obtain ⟨mid, hbody, hmid, hunder⟩ := ihbody context begun
    have htop : mid.under t = x :: w.under t := by
      rw [hunder]
      exact Function.update_self ..
    obtain ⟨last, hend, hlast, hleft⟩ := wrapUp_reaches (x := x) hthread htop job arrival.1.1
      arrival.1.2 ending.1.1 ending.1.2
    refine ⟨last, (hbegin.trans hbody).trans hend, ?_, ?_⟩
    · rw [hlast, hmid, Harness.run_eq]
      rfl
    · rw [hleft, hunder]
      change Function.update (Function.update w.under t (x :: w.under t)) t (w.under t) = w.under
      rw [Function.update_idem, Function.update_eq_self]

theorem Nests.unique {base now later : Bool} {under : List (Undertaking σ)}
    (h : Nests p t base under now) (h' : Nests p t base under later) : now = later := by
  cases h with
  | nil => cases h' with | nil => rfl
  | cons => cases h' with | cons => rfl

/-- Every run leaves its request scope and closes the unit that it opened, once each, in the way its
body calls for. So however runs are nested and whatever the threads do, a run leaves its thread as
it found it, the units opened are those closed and those still active, and those discarded are those
of the runs that opened one and failed. -/
theorem every_run_cleans_up (lawful : ∀ u a, p.get (p.put u a) = u) {first : Host σ}
    (balanced : (p.get first.app).Balanced) (run : Reaches p { host := first } w) :
    (∀ (s : Surroundings σ) (job : Job σ) (fire : FireContext) (h : Host σ),
      s.harness.run job fire h = ((s.watch job fire h).1,
          Observed.host (s.observed.run job.observed fire (Observed.fresh h)).2) ∧
        ∃ owns ended, Tidy s owns ended (s.watch job fire h).2) ∧
      (∀ (t : ThreadName) {α : Type} (a : Act σ α), Runs p t a → ∃ w',
        Reaches p { host := first } w' ∧ w'.host = (a w.host).2 ∧
          ∀ k, (w'.units p).isActive k = (w.units p).isActive k) ∧
      (w.units p).Balanced ∧
      (w.units p).aborted = (p.get first.app).aborted + w.past.countP PastRun.discards ∧
      ∀ r ∈ w.past, r.after = r.before := by
  have sound : Sound p (p.get first.app) { host := first } :=
    ⟨balanced, fun _ => .nil, rfl, List.forall_mem_nil _⟩
  have hw := run.sound lawful sound
  refine ⟨fun s job fire h => watch_tidy s job fire h, ?_, hw.balanced, hw.aborted, hw.steady⟩
  intro t α a ha
  obtain ⟨w', further, hhost, hunder⟩ := ha.reaches w
  have hw' := (run.trans further).sound lawful sound
  refine ⟨w', run.trans further, hhost, fun k => ?_⟩
  have hnests := hw'.nests k
  rw [hunder] at hnests
  exact hnests.unique (hw.nests k)

def lone : Harness ThreadUnits where
  policy := .unlimited
  bus := .ofPublish fun _ => pure (.ok ())
  unitOfWork := some (ThreadUnits.service .whole .main)

def dawn : Host ThreadUnits := { clock := .epoch, app := {} }

def nightly : FireContext where
  definition := { key := ⟨"nightly"⟩, kind := "nightly" }
  data := Dict.empty
  refireCount := 0
  scheduledFor := .epoch
  firedAt := .epoch

def step : Job ThreadUnits := { name := "step", body := fun _ => pure () }

def doomed : Job ThreadUnits where
  name := "doomed"
  body _ := do
    let _ ← Body.act (lone.run step nightly)
    Body.stop (.panicked "out of tape")

theorem joined_unit_discarded_once :
    ∃ w : Crew ThreadUnits, Reaches .whole { host := dawn } w ∧
      w.host = (lone.run doomed nightly dawn).2 ∧
      w.units .whole = { opened := 1, closed := 1, aborted := 1 } ∧
      w.past.countP PastRun.discards = 1 := by
  have kind := (Part.whole : Part ThreadUnits ThreadUnits).spares_composes
  have hthread : lone.OnThread .whole .main :=
    ⟨.inr rfl, nofun, nofun, kind.oneByOne (fun _ => kind.pure _) 0⟩
  have hstep : Runs .whole .main (lone.run step nightly) :=
    .run hthread (fun _ => .spares (kind.pure _)) nightly
  have hbody : ∀ context, (doomed.body context).execute = (do
      let _ ← lone.run step nightly
      return (.error (.panicked "out of tape"), [])) := fun _ => rfl
  have hdoomed : Runs .whole .main (lone.run doomed nightly) := by
    refine .run hthread (fun context => ?_) nightly
    rw [hbody context]
    exact .bind hstep fun _ => .spares (kind.pure _)
  obtain ⟨w, run, hhost, -⟩ := hdoomed.reaches { host := dawn }
  obtain ⟨-, -, -, haborted, -⟩ :=
    every_run_cleans_up (fun _ _ => rfl) ⟨List.nodup_nil, rfl⟩ run
  have hunits : w.units .whole = { opened := 1, closed := 1, aborted := 1 } := by
    unfold units
    rw [hhost]
    rfl
  rw [hunits] at haborted
  exact ⟨w, run, hhost, hunits, (Nat.zero_add _).symm.trans haborted.symm⟩

end Crew

end JobEngine
