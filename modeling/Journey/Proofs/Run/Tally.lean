import Journey.Proofs.Run.Entry

/-!
The tally of a block and the flag it looks at, one step at a time: what a look leaves alone, what a
result that counts does to the tally, and what the root cause is after it has been recorded once more.
Runs of several steps are told by the course of a block.
-/

namespace Journey

variable {β μ : Type}

namespace World

theorem look_history (w : World β) : w.look.2.history = w.history := by
  simp only [look]
  split <;> rfl

theorem look_browser (w : World β) : w.look.2.browser = w.browser := by
  simp only [look]
  split <;> rfl

end World

namespace Scene

theorem look_context (scene : Scene β μ) (policy : BlockPolicy) :
    (scene.look policy).2.context = scene.context := by
  simp only [look]
  split <;> rfl

theorem look_of_ne {policy : BlockPolicy} (h : policy ≠ .bestEffort) (scene : Scene β μ) :
    (scene.look policy).1 = scene.world.look.1 := by
  simp [look, h]

theorem ne_bestEffort_of_look {policy : BlockPolicy} {scene seen : Scene β μ}
    (h : scene.look policy = (true, seen)) : policy ≠ .bestEffort := by
  rintro rfl
  cases h

theorem look_world {policy : BlockPolicy} (h : policy ≠ .bestEffort) (scene : Scene β μ) :
    (scene.look policy).2 = { scene with world := scene.world.look.2 } := by
  simp [look, h]

end Scene

namespace Tally

theorem counts_eq {policy : BlockPolicy} (hp : policy ≠ .bestEffort) {r : StepResult}
    (carriedOut : r.skipped = none) : counts policy r = r.isCountedFailure := by
  simp [counts, hp, ActionResult.isCountedFailure, ActionResult.isSkipped, carriedOut]

theorem after_of_not_counts {policy : BlockPolicy} {r : StepResult} (h : counts policy r = false)
    (t : Tally) (step : Step) : t.after policy step r = t := by
  simp [after, h]

theorem first_after {policy : BlockPolicy} (hp : policy ≠ .bestEffort) {r : StepResult}
    (h : r.Settled) (t : Tally) (step : Step) :
    (t.after policy step r).first = t.first.or r.countedError? := by
  have counts := counts_eq hp h.carriedOut
  cases failed : r.isCountedFailure with
  | false =>
      rw [after_of_not_counts (counts.trans failed)]
      simp [ActionResult.countedError?, failed]
  | true => simp [after, counts, ActionResult.countedError?, failed, Option.orElse_eq_or]

/-- The first failure is found in the tally or further on, on either side of a step. -/
theorem first_after_or {policy : BlockPolicy} (hp : policy ≠ .bestEffort)
    {i : Nat} {s s' : Scene β μ} {r : StepResult} (h : r.Settled) (t : Tally) (step : Step)
    (xs : List (Entry β μ)) :
    (t.after policy step r).first.or (Entry.failureIn xs) =
      t.first.or (Entry.failureIn (⟨i, step, s, r, s'⟩ :: xs)) := by
  rw [first_after hp h, Option.or_assoc]
  exact congrArg _ (Entry.failureIn_cons (x := ⟨i, step, s, r, s'⟩) h xs).symm

theorem stop_after_strict {r : StepResult} (h : counts .strict r = true) (t : Tally)
    (step : Step) :
    (t.after .strict step r).stop = some s!"earlier step failed at {step.source.text}" := by
  simp [after, h]

theorem stop_after_lenient {policy : BlockPolicy} (hp : policy ≠ .strict) (t : Tally)
    (step : Step) (r : StepResult) : (t.after policy step r).stop = t.stop := by
  simp only [after, hp, if_false]
  split <;> rfl

/-- A tally is cancelled exactly if cancellation is what has stopped its block. -/
def Consistent (t : Tally) : Prop := t.cancelled = true ↔ t.stop = some "cancelled"

theorem consistent_zero : zero.Consistent := by simp [Consistent, zero]

theorem failureReason_ne (place : String) : s!"earlier step failed at {place}" ≠ "cancelled" := by
  intro h
  have first := congrArg (List.head? ∘ String.toList) h
  simp [String.toList_append, toString] at first

theorem cancelled_after (policy : BlockPolicy) (t : Tally) (step : Step) (r : StepResult) :
    (t.after policy step r).cancelled = t.cancelled := by
  simp only [after]
  split <;> rfl

theorem Consistent.after {t : Tally} (h : t.Consistent) (policy : BlockPolicy) (step : Step)
    (r : StepResult) (going : t.stop = none) : (t.after policy step r).Consistent := by
  have calm : ¬ t.cancelled = true := fun up => by rw [h.mp up] at going; cases going
  rw [Consistent, cancelled_after]
  refine ⟨fun up => absurd up calm, fun stop => ?_⟩
  -- No step that is carried out stops its block with the word that stands for cancellation.
  exfalso
  by_cases hp : policy = .strict
  · by_cases counted : counts policy r = true
    · subst hp
      rw [stop_after_strict counted] at stop
      exact failureReason_ne _ (Option.some.inj stop)
    · rw [after_of_not_counts (by simpa using counted), going] at stop
      cases stop
  · rw [stop_after_lenient hp, going] at stop
    cases stop

end Tally

namespace Context

theorem lastError_recordRootCause (c : Context) (error : RecordedError) :
    (c.recordRootCause error).lastError = c.lastError.or (some error) := by
  cases h : c.lastError <;> simp [recordRootCause, h]

theorem lastError_recordFirst (c : Context) (cause : Option RecordedError) :
    (c.recordFirst cause).lastError = c.lastError.or cause := by
  cases cause with
  | none => simp [recordFirst]
  | some error => exact c.lastError_recordRootCause error

theorem recordRootCause_but_lastError (c : Context) (error : RecordedError) :
    { c.recordRootCause error with lastError := c.lastError } = c := by
  obtain ⟨phase, step, data, lastError, metrics⟩ := c
  cases lastError <;> rfl

theorem recordFirst_but_lastError (c : Context) (cause : Option RecordedError) :
    { c.recordFirst cause with lastError := c.lastError } = c := by
  cases cause with
  | none => rfl
  | some error => exact c.recordRootCause_but_lastError error

end Context

theorem Scene.leads_recordFirst (s : Scene β μ) (cause : Option RecordedError) :
    s.Leads { s with context := s.context.recordFirst cause } :=
  ⟨rfl, rfl, Context.recordFirst_but_lastError _ _⟩

theorem Scene.leads_cancelBefore (s : Scene β μ) (t : Tally) (step : Step) :
    s.Leads (s.cancelBefore t step) :=
  (s.leads_recordFirst t.first).trans ⟨rfl, rfl, Context.recordRootCause_but_lastError _ _⟩

end Journey
