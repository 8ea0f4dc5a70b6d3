import Journey.Compile.Step
import Journey.Proofs.Run.Calm
import Journey.Proofs.Run.Place

/-!
A composite step beside the strict block of its actions, written out as steps of their own. The flag
apart, both store the same, count the same resolutions, fail alike, and ask the browser the same at the
same times, up to the evidence of a failure, which a collector may gather by the label of its step. The
place of a step is what they differ in; what they report is not compared beyond that.
-/

namespace Journey

variable {β μ : Type}

namespace ActionResult

/-- The same result, reported for another step. -/
def under (step : Step) (r : ActionResult) : ActionResult :=
  { r with
    label := step.label, keyword := step.keyword, source := step.source, optional := step.optional }

/-- The error of the first of the results that is no success. -/
def firstError (rs : List ActionResult) : Option StepError :=
  (rs.find? fun r => !r.success).bind (·.error)

theorem firstError_cons_of_success {r : ActionResult} (good : r.success = true)
    (rs : List ActionResult) : firstError (r :: rs) = firstError rs := by
  simp [firstError, good]

end ActionResult

/-- What is recorded about an error, but for the action that it is put down to. -/
def RecordedError.fault (x : RecordedError) : ErrorKind × String := (x.kind, x.message)

namespace Engine

variable (e : Engine β μ)

theorem attemptReport_under (step step' : Step) (number : Nat) (r : AttemptResult) :
    attemptReport step' number r = (attemptReport step number r).under step' := by
  simp only [attemptReport]
  split <;> rfl

section Under

variable {e} {call call' : ActionCall}

theorem runAttempt_congr (same : ∀ pack limit, e.attempt call' pack limit = e.attempt call pack limit)
    (pack : Option String) (limit : Nat) (s : Scene β μ) :
    e.runAttempt call' pack limit s = e.runAttempt call pack limit s := by
  simp only [runAttempt, same]

theorem attemptFrom_under (same : ∀ pack limit, e.attempt call' pack limit = e.attempt call pack limit)
    (step step' : Step) (pack : Option String) (limit spare number : Nat) (s : Scene β μ) :
    e.attemptFrom step' call' pack limit spare number s =
      (e.attemptFrom step call pack limit spare number s).map (·.under step') id := by
  induction spare generalizing number s with
  | zero =>
      simp only [attemptFrom, runAttempt_congr same, attemptReport_under step step']
      rfl
  | succ spare ih =>
      simp only [attemptFrom, runAttempt_congr same, attemptReport_under step step', ih]
      split <;> rfl

end Under

/-- The scene after the evidence of a failure has been gathered. -/
def gathered (source : SourceRef) (label : String) (s : Scene β μ) : Scene β μ :=
  match e.collector with
  | none => s
  | some collect =>
      let ending := (collect source label).run e.browser none s.world s.memory
      { s with world := ending.world, memory := ending.notes }

/-- Whatever the label, the collector asks the same and leaves the same behind; what it gives back may
differ. -/
def GathersAlike : Prop :=
  ∀ collect, e.collector = some collect → ∀ source label label' world memory,
    let ending := (collect source label).run e.browser none world memory
    let ending' := (collect source label').run e.browser none world memory
    ending.world = ending'.world ∧ ending.notes = ending'.notes

variable {e}

theorem GathersAlike.gathered (h : e.GathersAlike) (source : SourceRef) (label label' : String)
    (s : Scene β μ) : e.gathered source label s = e.gathered source label' s := by
  simp only [Engine.gathered]
  cases collects : e.collector with
  | none => rfl
  | some collect =>
      obtain ⟨world, memory⟩ := h collect collects source label label' s.world s.memory
      simp only [world, memory]

/-- The actions of a composite step beside the steps of their own: both come to their end, or fail with
the same error; the evidence of that is gathered on the second side only. -/
inductive Parallel (e : Engine β μ) (step : Step) (ran : List ActionResult × Scene β μ) :
    List StepResult × Tally × Scene β μ → Prop
  | completed {steps : List StepResult} {phase : Option String} {place : Option Nat}
      (actions : ∀ r ∈ executed ran.1, r.success = true) (good : ∀ r ∈ steps, r.success = true) :
      Parallel e step ran (steps, .zero, (ran.2.placed phase place).calm)
  | failed {steps : List StepResult} {phase : Option String} {place : Option Nat} {label : String}
      {error : StepError} {cause : RecordedError} {reason : String}
      (lost : ∃ r ∈ executed ran.1, r.success = false)
      (actions : ActionResult.firstError (executed ran.1) = some error)
      (own : ActionResult.firstError (steps.map StepResult.toActionResult) = some error)
      (told : cause.fault = (error.kind, error.message)) :
      Parallel e step ran (steps, ⟨1, some cause, some reason, false⟩,
        ((e.gathered step.source label ran.2).placed phase place).calm)

theorem executed_cons {r : ActionResult} (carriedOut : r.skipped = none) (rs : List ActionResult) :
    executed (r :: rs) = r :: executed rs := by
  simp [executed, ActionResult.isSkipped, carriedOut]

theorem Parallel.after {step : Step} {child : ActionResult} {own : StepResult}
    {ran : List ActionResult × Scene β μ} {native : List StepResult × Tally × Scene β μ}
    (h : e.Parallel step ran native) (carriedOut : child.skipped = none) (good : child.success = true)
    (good' : own.success = true) :
    e.Parallel step (child :: ran.1, ran.2) (own :: native.1, native.2) := by
  have shown := executed_cons carriedOut ran.1
  cases h with
  | completed actions steps =>
      refine .completed ?_ (List.forall_mem_cons.mpr ⟨good', steps⟩)
      rw [shown]
      exact List.forall_mem_cons.mpr ⟨good, actions⟩
  | failed lost actions steps told =>
      obtain ⟨r, among, failed⟩ := lost
      refine .failed ⟨r, ?_, failed⟩ ?_ ?_ told
      · rw [shown]
        exact List.mem_cons_of_mem _ among
      · rw [shown, ActionResult.firstError_cons_of_success good, actions]
      · rw [List.map_cons, ActionResult.firstError_cons_of_success good', steps]

/-- The composite step succeeds exactly if the block of its actions does. -/
theorem Parallel.success {step : Step} {ran : List ActionResult × Scene β μ}
    {native : List StepResult × Tally × Scene β μ} (h : e.Parallel step ran native) :
    (compositeReport step ran.1).success = native.2.1.success .strict := by
  cases h with
  | completed actions good => exact List.all_eq_true.mpr actions
  | failed lost actions own told =>
      obtain ⟨r, among, failed⟩ := lost
      refine Bool.eq_false_iff.mpr fun all => ?_
      have good := List.all_eq_true.mp all r among
      rw [failed] at good
      cases good

variable (e)

end Engine

/-- What shows of a run outside: the calls so far and their times, the browser, and the memory of the
plugins. -/
structure Outside (β μ : Type) where
  log : List Exchange
  now : Nat
  browser : β
  memory : μ

def Scene.outside (s : Scene β μ) : Outside β μ := ⟨s.world.log, s.world.now, s.world.browser, s.memory⟩

/-- Two blocks have gone the same way outside, but for the evidence of a failure: each has its own
gathered, after the same calls. -/
def SameBeforeEvidence (e : Engine β μ) (source : SourceRef) (a b : BlockResult × Scene β μ) : Prop :=
  ∃ (ran : Scene β μ) (label label' : String),
    a.2.outside = (if a.1.success then ran else e.gathered source label ran).outside ∧
      b.2.outside = (if b.1.success then ran else e.gathered source label' ran).outside

theorem SameBeforeEvidence.outside {e : Engine β μ} {source : SourceRef} {a b : BlockResult × Scene β μ}
    (h : SameBeforeEvidence e source a b) (gathers : e.GathersAlike) (success : a.1.success = b.1.success) :
    a.2.outside = b.2.outside := by
  obtain ⟨ran, label, label', left, right⟩ := h
  rw [left, right, success, gathers.gathered source label label']

namespace Engine

end Engine

namespace Engine

end Engine
end Journey
