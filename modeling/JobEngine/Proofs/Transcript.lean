/-! Steps one after the other, with what is seen of each. -/

namespace JobEngine

variable {σ ε : Type}

inductive Transcript (step : σ → ε → σ → Prop) : σ → List ε → σ → Prop where
  | here (s : σ) : Transcript step s [] s
  | step {s t u : σ} {event : ε} {events : List ε} (first : step s event t)
      (rest : Transcript step t events u) : Transcript step s (event :: events) u

namespace Transcript

variable {step : σ → ε → σ → Prop} {s t u : σ} {event : ε} {events before after : List ε}

theorem extend {holds : σ → Prop} (first : step s event t)
    (rest : ∃ u, Transcript step t events u ∧ holds u) :
    ∃ u, Transcript step s (event :: events) u ∧ holds u := by
  obtain ⟨u, hrest, hu⟩ := rest
  exact ⟨u, .step first hrest, hu⟩

theorem split (h : Transcript step s (before ++ after) u) :
    ∃ t, Transcript step s before t ∧ Transcript step t after u := by
  induction before generalizing s with
  | nil => exact ⟨s, .here s, h⟩
  | cons event before ih =>
    obtain _ | ⟨first, rest⟩ := h
    obtain ⟨t, hbefore, hafter⟩ := ih rest
    exact ⟨t, .step first hbefore, hafter⟩

theorem at_event (h : Transcript step s (before ++ event :: after) u) :
    ∃ t v, Transcript step s before t ∧ step t event v ∧ Transcript step v after u := by
  obtain ⟨t, hbefore, hrest⟩ := h.split
  obtain _ | ⟨first, hafter⟩ := hrest
  exact ⟨t, _, hbefore, first, hafter⟩

theorem append (first : Transcript step s before t) (rest : Transcript step t after u) :
    Transcript step s (before ++ after) u := by
  induction first with
  | here => exact rest
  | step event _ ih => exact .step event (ih rest)

/-- What every step keeps is kept to the end. -/
theorem kept {holds : σ → Prop} (h : Transcript step s events t)
    (hstep : ∀ {s event t}, step s event t → holds s → holds t) (hs : holds s) : holds t := by
  induction h with
  | here => exact hs
  | step first _ ih => exact ih (hstep first hs)

end Transcript

end JobEngine
