import JobEngine.Proofs.Envelope
/-! What a run promises about its events and its unit of work, in terms of the calls that it makes:
events leave after the body succeeded and the unit that the run opened was closed, or not at all. -/

namespace JobEngine

namespace Call

def ending? : Call → Option (Except Stop Unit × Outbox)
  | .ran ended queued => some (ended, queued)
  | _ => none

def closing? : Call → Option (Except UnitOfWorkError Unit)
  | .closed answer => some answer
  | _ => none

def abortion? : Call → Option (Except UnitOfWorkError Unit)
  | .aborted answer => some answer
  | _ => none

def batch? : Call → Option (List OutboundEvent)
  | .handed batch => some batch
  | _ => none

def delivery? : Call → Option OutboundEvent
  | .delivered e => some e
  | _ => none

def refusal? : Call → Option String
  | .refused reason => some reason
  | _ => none

end Call

/-- What the calls of a run look like, when its body ended so and had queued these events. -/
structure Promise (s : Surroundings σ) (job : Job σ) (fire : FireContext) (ended : Except Stop Unit)
    (queued : Outbox) (result : Except DispatchError Unit) (calls : List Call) : Prop where
  settled : result = .ok () ∨ (∃ stop, ended = .error stop) ∨
    (∃ e, e ≠ .notActive ∧ Call.closed (.error e) ∈ calls) ∨ ∃ reason, Call.refused reason ∈ calls
  sent : result = .ok () → ended = .ok () ∧ calls.filterMap Call.delivery? = queued ∧
    calls.filterMap Call.batch? = if queued.isEmpty then [] else [queued]
  closedFirst : result = .ok () → Call.opened (.ok ()) ∈ calls →
    ∃ front answer back, calls = front ++ .closed answer :: back ∧
      (answer = .ok () ∨ answer = .error .notActive) ∧
      front.filterMap Call.batch? = [] ∧ front.filterMap Call.delivery? = []
  stopped : ∀ stop, ended = .error stop → result = .error (failed s.policy job fire stop.error) ∧
    calls.filterMap Call.batch? = [] ∧ calls.filterMap Call.delivery? = [] ∧
    calls.filterMap Call.closing? = [] ∧
    (Call.opened (.ok ()) ∈ calls → ∃ answer, calls.filterMap Call.abortion? = [answer])
  /-- So does a unit that cannot be closed, but then it is not aborted. -/
  unclosed : ∀ e, e ≠ .notActive → Call.closed (.error e) ∈ calls →
    result = .error (failed s.policy job fire (commitError e)) ∧
    calls.filterMap Call.batch? = [] ∧ calls.filterMap Call.delivery? = []
  refused : ∀ reason, Call.refused reason ∈ calls →
    ∃ sent, sent < queued.length ∧ calls.filterMap Call.delivery? = queued.take sent ∧
      calls.filterMap Call.refusal? = [reason] ∧ (s.transport.isWhole → sent = 0) ∧
      ended = .ok () ∧ result = .error (unsent fire { sent, reason })

inductive Phase where
  | entering
  | opening
  | running
  | settling
  | leaving

def Call.phase : Call → Phase
  | .entered _ => .entering
  | .opened _ => .opening
  | .ran _ _ => .running
  | .closed _ | .handed _ | .delivered _ | .refused _ => .settling
  | .left | .aborted _ => .leaving

def Within (p : Phase) (calls : List Call) : Prop := ∀ c ∈ calls, c.phase = p

section

variable {σ α : Type} {s : Surroundings σ} {job : Job σ} {fire : FireContext} {calls : List Call}
variable {owns : Bool}

theorem Entering.within {context : ExecutionContext} (h : Entering s context calls) :
    Within .entering calls := by
  unfold Entering at h
  subst h
  split <;> simp [Within, Call.phase]

theorem Opening.within {scope : WorkScope σ} (h : Opening scope owns calls) :
    Within .opening calls := by
  cases h <;> simp [Within, Call.phase]

theorem Closing.within {answer : Except UnitOfWorkError Unit} (h : Closing owns answer calls) :
    Within .settling calls := by
  cases h <;> simp [Within, Call.phase]

theorem Publication.within {t : Transport σ} {queued : Outbox} {answer : Except PublishError Nat}
    (h : Publication t queued answer calls) : Within .settling calls := by
  cases h with
  | nothing => simp [Within]
  | all =>
    simp [Within, Call.phase]
  | upTo =>
    simp [Within, Call.phase, or_imp, forall_and]

theorem Settlement.within {queued : Outbox} {ended : Except Stop Unit}
    {answer : Except DispatchError Unit × Bool}
    (h : Settlement s job fire queued ended owns answer calls) : Within .settling calls := by
  cases h with
  | closed hclosing hsending =>
    intro c hc
    exact (List.mem_append.mp hc).elim (hclosing.within c) (hsending.within c)
  | unclosed hclosing => exact hclosing.within
  | stopped stop => simp [Within]

theorem Leaving.within {owes : Bool} (h : Leaving s owes calls) : Within .leaving calls := by
  obtain ⟨aborting, rfl, haborting⟩ := h
  intro c hc
  rcases List.mem_append.mp hc with hc | hc
  · split at hc
    · rw [List.mem_singleton.mp hc]
      rfl
    · cases hc
  · split at haborting
    · obtain ⟨answer, rfl⟩ := haborting
      rw [List.mem_singleton.mp hc]
      rfl
    · subst haborting
      cases hc

def Sees (p : Phase) (f : Call → Option α) : Prop := ∀ c, c.phase ≠ p → f c = none

theorem sees_ending : Sees .running Call.ending? := by
  rintro (_ | _) h <;> first | rfl | exact absurd rfl h

private theorem sees_closing : Sees .settling Call.closing? := by
  rintro (_ | _) h <;> first | rfl | exact absurd rfl h

theorem sees_batch : Sees .settling Call.batch? := by
  rintro (_ | _) h <;> first | rfl | exact absurd rfl h

theorem sees_delivery : Sees .settling Call.delivery? := by
  rintro (_ | _) h <;> first | rfl | exact absurd rfl h

private theorem sees_refusal : Sees .settling Call.refusal? := by
  rintro (_ | _) h <;> first | rfl | exact absurd rfl h

private theorem sees_abortion : Sees .leaving Call.abortion? := by
  rintro (_ | _) h <;> first | rfl | exact absurd rfl h

theorem filterMap_other {f : Call → Option α} {p q : Phase} (h : Within p calls) (hf : Sees q f)
    (hpq : p ≠ q) : calls.filterMap f = [] :=
  List.filterMap_eq_nil_iff.mpr fun c hc => hf c fun hq => hpq ((h c hc).symm.trans hq)

variable {result : Except DispatchError Unit}

namespace Course

def part (c : Course s job fire result) : Phase → List Call
  | .entering => c.entering
  | .opening => c.opening
  | .running => [.ran c.ended c.queued]
  | .settling => c.settling
  | .leaving => c.leaving

theorem calls_eq (c : Course s job fire result) :
    c.calls = c.part .entering ++ (c.part .opening ++ (c.part .running ++
      (c.part .settling ++ c.part .leaving))) := by
  simp [calls, part]

theorem within_part (c : Course s job fire result) (p : Phase) : Within p (c.part p) := by
  cases p with
  | entering => exact c.enters.within
  | opening => exact c.opens.within
  | running => exact fun _ h => List.mem_singleton.mp h ▸ rfl
  | settling => exact c.settles.within
  | leaving => exact c.leaves.within

theorem mem_calls (c : Course s job fire result) (call : Call) :
    call ∈ c.calls ↔ call ∈ c.part call.phase := by
  have only : ∀ p, call ∈ c.part p → call ∈ c.part call.phase := fun p h =>
    (c.within_part p call h).symm ▸ h
  rw [calls_eq]
  simp only [List.mem_append]
  constructor
  · rintro (h | h | h | h | h) <;> exact only _ h
  · cases call.phase <;> simp_all

theorem filterMap_calls (c : Course s job fire result) (p : Phase) {f : Call → Option α}
    (hf : Sees p f) : c.calls.filterMap f = (c.part p).filterMap f := by
  have others : ∀ q, q ≠ p → (c.part q).filterMap f = [] := fun q hq =>
    filterMap_other (c.within_part q) hf hq
  rw [calls_eq]
  simp only [List.filterMap_append]
  cases p <;> simp [others]

theorem opened_iff (c : Course s job fire result) : Call.opened (.ok ()) ∈ c.calls ↔ c.owns := by
  obtain ⟨_, owns, _, _, _, _, _, _, _, _, opens, _, _⟩ := c
  rw [mem_calls]
  simp only [part, Call.phase]
  cases opens <;> simp

end Course

/-! What the settling of a run shows. -/

private theorem mem_refusals {reason : String} :
    Call.refused reason ∈ calls ↔ reason ∈ calls.filterMap Call.refusal? := by
  rw [List.mem_filterMap]
  refine ⟨fun h => ⟨_, h, rfl⟩, ?_⟩
  rintro ⟨call, hcall, hreason⟩
  cases call <;> cases hreason
  exact hcall

@[simp] theorem delivery_delivered : Call.delivery? ∘ Call.delivered = some := rfl

@[simp] theorem batch_delivered : Call.batch? ∘ Call.delivered = fun _ => none := rfl

@[simp] theorem refusal_delivered : Call.refusal? ∘ Call.delivered = fun _ => none := rfl

namespace Publication

variable {t : Transport σ} {queued : Outbox}

private theorem not_closed {answer : Except PublishError Nat}
    (h : Publication t queued answer calls)
    (a : Except UnitOfWorkError Unit) : Call.closed a ∉ calls := by
  cases h <;> simp

theorem views_ok {n : Nat} (h : Publication t queued (.ok n) calls) :
    calls.filterMap Call.delivery? = queued ∧
      calls.filterMap Call.batch? = (if queued.isEmpty then [] else [queued]) ∧
      calls.filterMap Call.refusal? = [] := by
  cases h with
  | nothing hq => simp [hq]
  | all hq => simp [List.filterMap_cons, Call.delivery?, Call.batch?, Call.refusal?, hq]

private theorem views_error {e : PublishError} (h : Publication t queued (.error e) calls) :
    e.sent < queued.length ∧ calls.filterMap Call.delivery? = queued.take e.sent ∧
      calls.filterMap Call.refusal? = [e.reason] ∧ (t.isWhole → e.sent = 0) := by
  cases h with
  | upTo front e back reason hq hwhole =>
    subst hq
    refine ⟨by simp, ?_, ?_, fun whole => by simp [hwhole whole]⟩
    · simp [List.filterMap_cons, Call.delivery?]
    · simp [List.filterMap_cons, Call.refusal?]

end Publication

theorem Closing.views {answer : Except UnitOfWorkError Unit} (h : Closing owns answer calls) :
    calls.filterMap Call.delivery? = [] ∧ calls.filterMap Call.batch? = [] ∧
      calls.filterMap Call.refusal? = [] := by
  cases h <;> simp [Call.delivery?, Call.batch?, Call.refusal?]

namespace Settlement

variable {queued : Outbox} {ended : Except Stop Unit} {owes : Bool}

theorem views_ok (h : Settlement s job fire queued ended owns (.ok (), owes) calls) :
    ended = .ok () ∧ calls.filterMap Call.delivery? = queued ∧
      calls.filterMap Call.batch? = if queued.isEmpty then [] else [queued] := by
  generalize hr : (Except.ok (), owes) = r at h
  cases h with
  | @closed _ closing sending publishing hclosing hsending =>
    cases sending with
    | error e => cases hr
    | ok n =>
      obtain ⟨hdelivered, hbatches, -⟩ := hsending.views_ok
      obtain ⟨hnone, hno, -⟩ := hclosing.views
      refine ⟨rfl, ?_, ?_⟩
      · rw [List.filterMap_append, hnone, hdelivered, List.nil_append]
      · rw [List.filterMap_append, hno, hbatches, List.nil_append]
  | unclosed | stopped => cases hr

theorem ways (h : Settlement s job fire queued ended owns (result, owes) calls) :
    result = .ok () ∨ (∃ stop, ended = .error stop) ∨
      (∃ e, e ≠ .notActive ∧ Call.closed (.error e) ∈ calls) ∨
      ∃ reason, Call.refused reason ∈ calls := by
  generalize hr : (result, owes) = r at h
  cases h with
  | stopped stop => exact .inr (.inl ⟨stop, rfl⟩)
  | unclosed hclosing =>
    cases hclosing with
    | failed _ he => exact .inr (.inr (.inl ⟨_, he, List.mem_singleton_self _⟩))
  | @closed _ closing sending publishing hclosing hsending =>
    cases sending with
    | ok _ =>
      cases hr
      exact .inl rfl
    | error e =>
      refine .inr (.inr (.inr ⟨e.reason, List.mem_append_right _ ?_⟩))
      rw [mem_refusals, hsending.views_error.2.2.1]
      exact List.mem_singleton_self _

private theorem closed_first (h : Settlement s job fire queued ended true (.ok (), owes) calls) :
    ∃ answer rest, calls = .closed answer :: rest ∧
      (answer = .ok () ∨ answer = .error .notActive) := by
  generalize hr : (Except.ok (), owes) = r at h
  cases h with
  | closed hclosing hsending =>
    cases hclosing with
    | kept => exact ⟨_, _, rfl, .inl rfl⟩
    | already => exact ⟨_, _, rfl, .inr rfl⟩
  | unclosed | stopped => cases hr

private theorem eq_nil_of_stopped {stop : Stop} {answer : Except DispatchError Unit}
    (h : Settlement s job fire queued (.error stop) owns (answer, owes) calls) :
    answer = .error (failed s.policy job fire stop.error) ∧ owes = owns ∧ calls = [] := by
  cases h with
  | stopped => exact ⟨rfl, rfl, rfl⟩

theorem of_unclosed {answer : Except DispatchError Unit} {e : UnitOfWorkError} (he : e ≠ .notActive)
    (hmem : Call.closed (.error e) ∈ calls)
    (h : Settlement s job fire queued ended owns (answer, owes) calls) :
    answer = .error (failed s.policy job fire (commitError e)) ∧
      calls.filterMap Call.batch? = [] ∧ calls.filterMap Call.delivery? = [] := by
  generalize hr : (answer, owes) = r at h
  cases h with
  | stopped => cases hmem
  | unclosed hclosing =>
    cases hclosing with
    | failed _ he' =>
      cases hr
      cases List.mem_singleton.mp hmem
      exact ⟨rfl, rfl, rfl⟩
  | closed hclosing hsending =>
    -- a unit that counts as closed has not answered with such an error
    have hclosed := (List.mem_append.mp hmem).resolve_right (hsending.not_closed _)
    cases hclosing with
    | foreign => cases hclosed
    | kept => cases List.mem_singleton.mp hclosed
    | already =>
      cases List.mem_singleton.mp hclosed
      exact absurd rfl he

theorem of_refused {answer : Except DispatchError Unit} {reason : String}
    (hmem : Call.refused reason ∈ calls)
    (h : Settlement s job fire queued ended owns (answer, owes) calls) :
    ∃ sent, sent < queued.length ∧ calls.filterMap Call.delivery? = queued.take sent ∧
      calls.filterMap Call.refusal? = [reason] ∧ (s.transport.isWhole → sent = 0) ∧
      ended = .ok () ∧ answer = .error (unsent fire { sent, reason }) := by
  rw [mem_refusals] at hmem
  generalize hr : (answer, owes) = r at h
  cases h with
  | stopped => cases hmem
  | unclosed hclosing =>
    rw [hclosing.views.2.2] at hmem
    cases hmem
  | @closed _ closing sending publishing hclosing hsending =>
    obtain ⟨hnone, -, hno⟩ := hclosing.views
    rw [List.filterMap_append, hno, List.nil_append] at hmem
    simp only [List.filterMap_append, hnone, hno, List.nil_append]
    cases sending with
    | ok n =>
      rw [hsending.views_ok.2.2] at hmem
      cases hmem
    | error e =>
      obtain ⟨hsent, hdelivered, hrefused, hwhole⟩ := hsending.views_error
      rw [hrefused] at hmem
      obtain rfl := List.mem_singleton.mp hmem
      cases hr
      exact ⟨e.sent, hsent, hdelivered, hrefused, hwhole, trivial, rfl⟩

end Settlement

theorem Leaving.abortions {owes : Bool} (h : Leaving s owes calls) (howes : owes) :
    ∃ answer, calls.filterMap Call.abortion? = [answer] := by
  obtain ⟨aborting, rfl, haborting⟩ := h
  rw [if_pos howes] at haborting
  obtain ⟨answer, rfl⟩ := haborting
  refine ⟨answer, ?_⟩
  split <;> rfl

namespace Course

def prelude (c : Course s job fire result) : List Call :=
  c.entering ++ c.opening ++ [.ran c.ended c.queued]

private theorem filterMap_prelude (c : Course s job fire result) {f : Call → Option α}
    (hf : Sees .settling f) : c.prelude.filterMap f = [] := by
  unfold prelude
  rw [List.filterMap_append, List.filterMap_append, filterMap_other c.enters.within hf nofun,
    filterMap_other c.opens.within hf nofun]
  exact filterMap_other (c.within_part .running) hf nofun

private theorem closed_before (c : Course s job fire (.ok ())) (howns : c.owns) :
    ∃ front answer back, c.calls = front ++ .closed answer :: back ∧
      (answer = .ok () ∨ answer = .error .notActive) ∧
      front.filterMap Call.batch? = [] ∧ front.filterMap Call.delivery? = [] := by
  have hsettles := c.settles
  rw [howns] at hsettles
  obtain ⟨answer, rest, hsettling, hanswer⟩ := hsettles.closed_first
  refine ⟨c.prelude, answer, rest ++ c.leaving, ?_, hanswer, c.filterMap_prelude sees_batch,
    c.filterMap_prelude sees_delivery⟩
  simp [calls, prelude, hsettling]

theorem promise (c : Course s job fire result) :
    Promise s job fire c.ended c.queued result c.calls where
  settled := by
    simp only [c.mem_calls]
    exact c.settles.ways
  sent hok := by
    subst hok
    rw [c.filterMap_calls _ sees_delivery, c.filterMap_calls _ sees_batch]
    exact c.settles.views_ok
  closedFirst hok hopened := by
    subst hok
    exact c.closed_before (c.opened_iff.mp hopened)
  stopped stop hstop := by
    have hsettles := c.settles
    rw [hstop] at hsettles
    obtain ⟨hresult, howes, hnone⟩ := hsettles.eq_nil_of_stopped
    rw [c.filterMap_calls _ sees_batch, c.filterMap_calls _ sees_delivery,
      c.filterMap_calls _ sees_closing, c.filterMap_calls _ sees_abortion]
    simp only [part, hnone, List.filterMap_nil, true_and]
    refine ⟨hresult, fun hopened => c.leaves.abortions ?_⟩
    rw [howes]
    exact c.opened_iff.mp hopened
  unclosed e he hclosed := by
    rw [c.filterMap_calls _ sees_batch, c.filterMap_calls _ sees_delivery]
    exact c.settles.of_unclosed he ((c.mem_calls _).mp hclosed)
  refused reason hrefused := by
    rw [c.filterMap_calls _ sees_delivery, c.filterMap_calls _ sees_refusal]
    exact c.settles.of_refused ((c.mem_calls _).mp hrefused)

end Course

end

def JobContext.emitAll (c : JobContext) : List OutboundEvent → Body σ Unit
  | [] => pure ()
  | e :: rest => do
    c.emit e
    c.emitAll rest

theorem run_emitAll (c : JobContext) (es : List OutboundEvent) (next : Body σ Unit)
    (queued : Outbox) :
    StateT.run (ExceptT.run (do c.emitAll es; next)) queued =
      StateT.run (ExceptT.run next) (queued ++ es.map c.attributed) := by
  induction es generalizing queued with
  | nil =>
    rw [List.map_nil, List.append_nil]
    rfl
  | cons e rest ih =>
    change StateT.run (ExceptT.run (do c.emitAll rest; next)) (queued ++ [c.attributed e]) = _
    rw [ih, List.append_assoc]
    rfl

private theorem execute_emitAll (c : JobContext) (es : List OutboundEvent)
    (ended : Except Stop Unit) : Body.execute (σ := σ) (do c.emitAll es; ExceptT.mk (pure ended)) =
      pure (ended, es.map c.attributed) := by
  unfold Body.execute
  rw [run_emitAll]
  rfl

theorem Harness.midway_emitted (harness : Harness σ) {job : Job σ} (fire : FireContext)
    {es : List OutboundEvent} {last : Except Stop Unit}
    (hbody : ∀ context, job.body context = do context.emitAll es; ExceptT.mk (pure last))
    (h : Host σ) :
    let m := (harness.midway job fire h).1
    m.ended = last ∧ ∃ context : JobContext, context.run.key = fire.key ∧
      m.events = es.map context.attributed := by
  intro m
  have hrun : m.run.key = fire.key ∧ m.run.attempt = fire.refireCount := start_gives fire h
  let context : JobContext := { run := m.run, data := fire.data, context := .ofRun m.run }
  have hended : (m.ended, m.events) = (last, es.map context.attributed) := by
    simp only [m, context, Harness.midway, hbody, execute_emitAll]
    rfl
  exact ⟨congrArg Prod.fst hended, context, hrun.1, congrArg Prod.snd hended⟩

/-- Every run keeps its promise about events and units of work, and observing it changes nothing.
The events are those that the body emitted, in their order. -/
theorem run_keeps_promise (s : Surroundings σ) (job : Job σ) (fire : FireContext) (h : Host σ) :
    (s.harness.run job fire h).1 = (s.watch job fire h).1 ∧
      ∃ ended queued, (s.watch job fire h).2.filterMap Call.ending? = [(ended, queued)] ∧
        Promise s job fire ended queued (s.watch job fire h).1 (s.watch job fire h).2 ∧
        ∀ es last, (∀ context, job.body context = do context.emitAll es; ExceptT.mk (pure last)) →
          ended = last ∧ ∃ context : JobContext, context.run.key = fire.key ∧
            queued = es.map context.attributed := by
  have hsame := congrArg Prod.fst ((follows_run s job fire).same (Observed.fresh h))
  obtain ⟨c, hwatch, -, hended, hqueued⟩ := watch_course s job fire h
  refine ⟨hsame, c.ended, c.queued, ?_, ?_, fun es last hbody => ?_⟩
  · rw [hwatch, c.filterMap_calls _ sees_ending]
    rfl
  · rw [hwatch]
    exact c.promise
  · rw [hended, hqueued]
    exact s.harness.midway_emitted fire hbody h

end JobEngine
