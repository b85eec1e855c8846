import JobEngine.Harness
/-! What a run can answer: success, a failure that the policy has judged, or events that could not
be sent. This holds of every harness, whatever its bus, its unit of work and its job do. -/

namespace JobEngine

variable {σ α β : Type}

def RetryPolicy.aftermath (p : RetryPolicy) (attempt : Nat) (kind : FailureKind) : Aftermath :=
  if kind.isRetryable then
    if (p.decide attempt kind).retry then .refire (p.decide attempt kind).delay else .exhausted
  else .fatal

def failed (policy : RetryPolicy) (job : Job σ) (fire : FireContext) (cause : JobError) :
    DispatchError :=
  { key := fire.key, attempt := fire.refireCount
    aftermath := policy.aftermath fire.refireCount (job.classify cause), cause }

def unsent (fire : FireContext) (e : PublishError) : DispatchError :=
  { key := fire.key, attempt := fire.refireCount, aftermath := .fatal
    cause := .fatalText e.message }

def commitError (e : UnitOfWorkError) : JobError :=
  .retry ("unit of work commit failed: " ++ e.message)

theorem RetryPolicy.aftermath_cases (p : RetryPolicy) (attempt : Nat) (kind : FailureKind) :
    p.aftermath attempt kind = .fatal ∨
      (p.aftermath attempt kind =
          .refire (p.backoff.delayFor (Nat.min (attempt + 1) Backoff.maxAttempt)) ∧
        (p.maxRetries < 0 ∨ (attempt : Int) < p.maxRetries)) ∨
      (p.aftermath attempt kind = .exhausted ∧ 0 ≤ p.maxRetries ∧ p.maxRetries ≤ attempt) := by
  unfold RetryPolicy.aftermath RetryPolicy.decide RetryPolicy.isUnlimited
  by_cases hkind : kind.isRetryable
  · by_cases hretry : p.maxRetries < 0 ∨ (attempt : Int) < p.maxRetries
    · simp [hkind, hretry]
    · simp only [hkind, hretry, Bool.true_and, ↓reduceIte, Bool.or_eq_true, decide_eq_true_eq]
      exact .inr (.inr ⟨trivial, by omega, by omega⟩)
  · simp [hkind]

theorem RetryPolicy.aftermath_of_retryable (p : RetryPolicy) (attempt : Nat) {kind : FailureKind}
    (retryable : kind.isRetryable) :
    (∃ delay, p.aftermath attempt kind = .refire delay) ∨
      p.aftermath attempt kind = .exhausted := by
  unfold RetryPolicy.aftermath
  rw [if_pos retryable]
  split
  · exact .inl ⟨_, rfl⟩
  · exact .inr rfl

/-- Whatever the host, the act answers so. -/
def Gives (a : Act σ α) (P : α → Prop) : Prop := ∀ h, P (a h).1

namespace Gives

variable {a : Act σ α} {f : α → Act σ β} {P : α → Prop} {Q : β → Prop}

theorem bind (ha : Gives a P) (hf : ∀ x, P x → Gives (f x) Q) : Gives (a >>= f) Q := fun h =>
  hf _ (ha h) (a h).2

theorem after (hf : ∀ x, Gives (f x) Q) : Gives (a >>= f) Q := fun h => hf _ (a h).2

theorem pure {x : α} (hx : P x) : Gives (pure x : Act σ α) P := fun _ => hx

end Gives

/-- What a run of this fire may answer under this policy. -/
inductive RunAnswer (policy : RetryPolicy) (fire : FireContext) :
    Except DispatchError Unit → Prop where
  | done : RunAnswer policy fire (.ok ())
  | unsent (e : PublishError) : RunAnswer policy fire (.error (unsent fire e))
  | failed {σ : Type} (job : Job σ) (cause : JobError) :
      RunAnswer policy fire (.error (failed policy job fire cause))

section

variable (h : Harness σ) (job : Job σ) (fire : FireContext)
variable {run : JobRun} (hrun : run.key = fire.key ∧ run.attempt = fire.refireCount)

theorem start_gives :
    Gives (σ := σ) (JobRun.start fire) fun run =>
      run.key = fire.key ∧ run.attempt = fire.refireCount :=
  Gives.after fun _ => Gives.after fun _ => Gives.after fun _ => Gives.after fun _ =>
    Gives.pure ⟨rfl, rfl⟩

include hrun

theorem onFailure_gives (cause : JobError) :
    Gives (h.onFailure job run cause) (· = failed h.policy job fire cause) := by
  unfold Harness.onFailure failed RetryPolicy.aftermath
  simp only [hrun.1, hrun.2]
  by_cases hkind : (job.classify cause).isRetryable
  · simp only [hkind, ↓reduceIte]
    have judged : Gives (h.policy.judge (σ := σ) fire.refireCount (job.classify cause) cause)
        (· = h.policy.decide fire.refireCount (job.classify cause)) :=
      Gives.after fun _ => Gives.pure rfl
    refine judged.bind ?_
    rintro _ rfl
    exact Gives.pure rfl
  · simp only [hkind]
    exact Gives.after fun _ => Gives.pure rfl

theorem flush_answer (events : Outbox) :
    Gives (h.flush run events) fun r => r = .ok () ∨ ∃ e, r = .error (unsent fire e) := by
  apply Gives.after
  intro sending
  cases sending with
  | ok _ => exact Gives.after fun _ => Gives.pure (.inl rfl)
  | error e =>
    rw [hrun.1, hrun.2]
    exact Gives.after fun _ => Gives.pure (.inr ⟨e, rfl⟩)

private theorem flush_gives (events : Outbox) :
    Gives (h.flush run events) (RunAnswer h.policy fire) := fun host => by
  obtain hdone | ⟨e, hunsent⟩ := flush_answer h fire hrun events host
  · rw [hdone]
    exact .done
  · rw [hunsent]
    exact .unsent e

private theorem conclude_gives (events : Outbox) (closed : Except UnitOfWorkError Unit) :
    Gives (h.conclude job run events closed) (RunAnswer h.policy fire) := by
  cases closed with
  | ok _ => exact flush_gives h fire hrun events
  | error e =>
    refine Gives.after fun _ => (onFailure_gives h job fire hrun (commitError e)).bind ?_
    rintro _ rfl
    exact Gives.pure (.failed job _)

private theorem settle_gives (owns : Bool) (ended : Except Stop Unit) (events : Outbox) :
    Gives (h.settle job run owns ended events) fun r => RunAnswer h.policy fire r.1 := by
  cases ended with
  | ok _ =>
    exact Gives.after fun closed =>
      (conclude_gives h job fire hrun events closed).bind fun _ hanswer => Gives.pure hanswer
  | error stop =>
    refine Gives.after fun _ => (onFailure_gives h job fire hrun stop.error).bind ?_
    rintro _ rfl
    exact Gives.pure (.failed job _)

omit hrun

theorem run_gives : Gives (h.run job fire) (RunAnswer h.policy fire) := by
  refine (start_gives fire).bind fun run hrun => ?_
  refine Gives.after fun _ => Gives.after fun started => Gives.after fun owns => Gives.after ?_
  rintro ⟨ended, events⟩
  have finished : Gives (σ := σ) run.finish fun next =>
      next.key = fire.key ∧ next.attempt = fire.refireCount := Gives.after fun _ => Gives.pure hrun
  refine finished.bind fun next hnext => (settle_gives h job fire hnext owns ended events).bind ?_
  exact fun _ hanswer => Gives.after fun _ => Gives.after fun _ => Gives.pure hanswer

end

end JobEngine
