import Journey.Engine.Step
import Journey.Proofs.Dialogue

/-!
What the result of one step always shows: it is that of the step, it is not passed over, and a
failure carries its error. This holds for every kind of step, however its attempts come out; what the
step does to the context is a matter of its own.
-/

namespace Journey

/-- The result belongs to the step: it has its label, keyword, place and optional mark. -/
structure ActionResult.BelongsTo (r : ActionResult) (step : Step) : Prop where
  label : r.label = step.label
  keyword : r.keyword = step.keyword
  source : r.source = step.source
  optional : r.optional = step.optional

/-- The result of an action that was carried out: it is not passed over, and fails with an error. -/
structure ActionResult.Settled (r : ActionResult) : Prop where
  carriedOut : r.skipped = none
  error : r.success = false → r.error.isSome

/-- The result of a step that was carried out. -/
structure ActionResult.Reports (r : ActionResult) (step : Step) : Prop extends
  ActionResult.BelongsTo r step, ActionResult.Settled r

theorem StepResult.passedOver_belongsTo (step : Step) (reason : String) :
    (StepResult.passedOver step reason).BelongsTo step :=
  ⟨rfl, rfl, rfl, rfl⟩

namespace Engine

variable {β μ : Type}

theorem attemptReport_reports (step : Step) (number : Nat) (r : AttemptResult) :
    (attemptReport step number r).Reports step := by
  cases h : r.outcome with
  | ok outputs =>
      simp only [attemptReport, h]
      exact ⟨⟨rfl, rfl, rfl, rfl⟩, rfl, fun failed => by cases failed⟩
  | error error =>
      simp only [attemptReport, h]
      exact ⟨⟨rfl, rfl, rfl, rfl⟩, rfl, fun _ => rfl⟩

theorem attemptFrom_reports (e : Engine β μ) (step : Step) (call : ActionCall)
    (pack : Option String) (limit spare number : Nat) (scene : Scene β μ) :
    (e.attemptFrom step call pack limit spare number scene).1.Reports step := by
  induction spare generalizing number scene with
  | zero => exact attemptReport_reports step number _
  | succ spare ih =>
      simp only [attemptFrom]
      split
      · exact ih _ _
      · exact attemptReport_reports step number _

theorem carryOut_reports (e : Engine β μ) (step : Step) (call : ActionCall)
    (pack : Option String) (scene : Scene β μ) :
    (e.carryOut step call pack scene).1.Reports step := by
  simp only [carryOut]
  split
  · exact ⟨⟨rfl, rfl, rfl, rfl⟩, rfl, fun _ => rfl⟩
  · exact e.attemptFrom_reports step call pack _ _ _ scene

theorem executed_passOver (step : Step) (total : Nat) (composite : Params) (reason : String)
    (index : Nat) (actions : List ExpandedStep) :
    executed (passOver step total composite reason index actions) = [] := by
  induction actions generalizing index with
  | nil => rfl
  | cons child rest ih => exact ih (index + 1)

theorem carryOutAll_settled (e : Engine β μ) (step : Step) (pack : Option String) (total : Nat)
    (composite : Params) (index : Nat) (actions : List ExpandedStep) (scene : Scene β μ) :
    ∀ r ∈ executed (e.carryOutAll step pack total composite index actions scene).1, r.Settled := by
  induction actions generalizing index scene with
  | nil => simp [carryOutAll, executed]
  | cons child rest ih =>
      have first := (e.carryOut_reports step (child.call composite) pack scene).toSettled
      have settled : (asChild step index total (child.call composite)
          (e.carryOut step (child.call composite) pack scene).1).Settled := ⟨first.1, first.2⟩
      simp only [carryOutAll]
      split
      · intro r hr
        obtain ⟨mem, shown⟩ := List.mem_filter.mp hr
        rcases List.mem_cons.mp mem with rfl | later
        · exact settled
        · exact ih _ _ r (List.mem_filter.mpr ⟨later, shown⟩)
      · intro r hr
        obtain ⟨mem, shown⟩ := List.mem_filter.mp hr
        rcases List.mem_cons.mp mem with rfl | later
        · exact settled
        · -- What follows a failure is passed over, and so is not among what was executed.
          have none := executed_passOver step total composite
            s!"'{step.keyword}' step {index} failed" (index + 1) rest
          have : r ∈ ([] : List ActionResult) := none ▸ List.mem_filter.mpr ⟨later, shown⟩
          cases this

theorem compositeReport_reports (step : Step) (children : List ActionResult)
    (h : ∀ r ∈ executed children, r.Settled) : (compositeReport step children).Reports step := by
  refine ⟨⟨rfl, rfl, rfl, rfl⟩, rfl, fun failed => ?_⟩
  have found : ((executed children).find? fun r => !r.success).isSome := by
    rw [List.find?_isSome]
    simpa [compositeReport] using failed
  obtain ⟨r, hr⟩ := Option.isSome_iff_exists.mp found
  have mem := List.mem_of_find?_eq_some hr
  have lost : r.success = false := by simpa using List.find?_some hr
  have error := (h r mem).error lost
  simpa [compositeReport, hr] using error

theorem compositeFailure_reports (step : Step) (error : StepError) :
    (compositeFailure step error).Reports step :=
  ⟨⟨rfl, rfl, rfl, rfl⟩, rfl, fun _ => rfl⟩

theorem carryOutComposite_reports (e : Engine β μ) (step : Step) (pack : Option String)
    (scene : Scene β μ) : (e.carryOutComposite step pack scene).1.Reports step := by
  simp only [carryOutComposite]
  split
  · exact compositeFailure_reports step _
  · split
    · exact compositeFailure_reports step _
    · exact compositeReport_reports step _ (e.carryOutAll_settled step pack _ _ _ _ scene)

theorem gather_reports (e : Engine β μ) (step : Step) {r : StepResult} (scene : Scene β μ)
    (h : r.Reports step) : (e.gather step r scene).1.Reports step := by
  simp only [gather]
  split
  · exact h
  · exact ⟨⟨h.label, h.keyword, h.source, h.optional⟩, h.carriedOut, h.error⟩

theorem carryOutStep_reports (e : Engine β μ) (step : Step) (pack : Option String)
    (scene : Scene β μ) : (e.carryOutStep step pack scene).1.Reports step := by
  simp only [carryOutStep]
  cases step.kind with
  | semantic => exact e.carryOutComposite_reports step pack scene
  | atomic | plugin _ => exact e.carryOut_reports step step.call pack scene

/-- Whatever becomes of a step that is carried out, its result reports on it. -/
theorem executeStep_reports (e : Engine β μ) (step : Step) (pack : Option String)
    (scene : Scene β μ) : (e.executeStep step pack scene).1.Reports step := by
  have h := e.carryOutStep_reports step pack scene
  simp only [executeStep]
  split
  · exact h
  · exact e.gather_reports step _ h

end Engine
end Journey
