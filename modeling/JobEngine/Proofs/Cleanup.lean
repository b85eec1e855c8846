import JobEngine.Proofs.Transaction
/-! What a run asks of its surroundings beside the publication of its events, as the list of what it
asks for in its order. Only three things about a run decide on it: what the harness was given,
whether the run opened a unit of work, and whether its body succeeded. So a request scope is left
once if it was entered, and a unit is closed once, in one of two ways, by the run that opened it. -/

namespace JobEngine

inductive Service where
  | enter
  | begin
  | body
  | finish
  | leave
  | abort
  deriving DecidableEq

def Call.service? : Call → Option Service
  | .entered _ => some .enter
  | .opened _ => some .begin
  | .ran _ _ => some .body
  | .closed _ => some .finish
  | .left => some .leave
  | .aborted _ => some .abort
  | .handed _ | .delivered _ | .refused _ => none

def services (inScope enabled owns succeeded : Bool) : List Service :=
  (if inScope then [.enter] else []) ++ (if enabled then [.begin] else []) ++ [.body] ++
    (if owns && succeeded then [.finish] else []) ++ (if inScope then [.leave] else []) ++
    (if owns && !succeeded then [.abort] else [])

/-- The calls of a run that opened a unit of work or did not, and whose body ended so. -/
structure Tidy (s : Surroundings σ) (owns : Bool) (ended : Except Stop Unit) (calls : List Call) :
    Prop where
  opened : Call.opened (.ok ()) ∈ calls ↔ owns
  ran : ∃ queued, calls.filterMap Call.ending? = [(ended, queued)]
  served : calls.filterMap Call.service? =
    services s.requestScope.isSome s.unitOfWork.isSome owns ended.isOk

variable {σ : Type} {s : Surroundings σ} {job : Job σ} {fire : FireContext} {calls : List Call}
variable {owns : Bool}

theorem Entering.services {context : ExecutionContext} (h : Entering s context calls) :
    calls.filterMap Call.service? = if s.requestScope.isSome then [.enter] else [] := by
  rw [h]
  split <;> rfl

theorem Opening.services {scope : WorkScope σ} (h : Opening scope owns calls) :
    calls.filterMap Call.service? = if scope.isSome then [.begin] else [] := by
  cases h with
  | disabled hnone =>
    rw [hnone]
    rfl
  | own enabled =>
    rw [if_pos enabled]
    rfl
  | foreign enabled e =>
    rw [if_pos enabled]
    rfl

theorem Closing.services {answer : Except UnitOfWorkError Unit} (h : Closing owns answer calls) :
    calls.filterMap Call.service? = if owns then [.finish] else [] := by
  cases h <;> rfl

theorem Publication.services {t : Transport σ} {queued : Outbox} {answer : Except PublishError Nat}
    (h : Publication t queued answer calls) : calls.filterMap Call.service? = [] := by
  have hdelivered : Call.service? ∘ Call.delivered = fun _ => none := rfl
  cases h <;> simp [List.filterMap_cons, Call.service?, hdelivered]

theorem Settlement.services {queued : Outbox} {ended : Except Stop Unit} {owes : Bool}
    {result : Except DispatchError Unit}
    (h : Settlement s job fire queued ended owns (result, owes) calls) :
    calls.filterMap Call.service? = (if owns && ended.isOk then [.finish] else []) ∧
      owes = (owns && !ended.isOk) := by
  generalize hr : (result, owes) = r at h
  cases h with
  | closed hclosing hsending =>
    cases hr
    rw [List.filterMap_append, hclosing.services, hsending.services]
    simp [Except.isOk, Except.toBool]
  | unclosed hclosing =>
    cases hr
    rw [hclosing.services]
    simp [Except.isOk, Except.toBool]
  | stopped stop =>
    cases hr
    simp [Except.isOk, Except.toBool]

theorem Leaving.services {owes : Bool} (h : Leaving s owes calls) :
    calls.filterMap Call.service? =
      (if s.requestScope.isSome then [.leave] else []) ++ if owes then [.abort] else [] := by
  obtain ⟨aborting, rfl, haborting⟩ := h
  rw [List.filterMap_append]
  congr 1
  · split <;> rfl
  · cases owes with
    | true =>
      obtain ⟨answer, rfl⟩ := haborting
      rfl
    | false =>
      obtain rfl : aborting = [] := haborting
      rfl

variable {result : Except DispatchError Unit}

theorem Course.tidy (c : Course s job fire result) : Tidy s c.owns c.ended c.calls where
  opened := c.opened_iff
  ran := by
    refine ⟨c.queued, ?_⟩
    rw [c.filterMap_calls _ sees_ending]
    rfl
  served := by
    obtain ⟨hsettling, howes⟩ := c.settles.services
    have hbody : [Call.ran c.ended c.queued].filterMap Call.service? = [.body] := rfl
    rw [c.calls_eq]
    simp only [Course.part, List.filterMap_append, c.enters.services, c.opens.services, hbody,
      hsettling, c.leaves.services, howes, services, List.append_assoc]

theorem watch_tidy (s : Surroundings σ) (job : Job σ) (fire : FireContext) (h : Host σ) :
    s.harness.run job fire h = ((s.watch job fire h).1,
        Observed.host (s.observed.run job.observed fire (Observed.fresh h)).2) ∧
      ∃ owns ended, Tidy s owns ended (s.watch job fire h).2 := by
  have follows := follows_run s job fire
  obtain ⟨calls, hcalls, c, rfl⟩ := follows.fits (Observed.fresh h)
  have hwatch : (s.watch job fire h).2 = c.calls := hcalls
  refine ⟨follows.same (Observed.fresh h), c.owns, c.ended, ?_⟩
  rw [hwatch]
  exact c.tidy

end JobEngine
