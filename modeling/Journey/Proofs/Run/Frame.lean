import Journey.Engine.Step
import Journey.Proofs.Run.Action

/-!
The frame of a step: an attempt changes the context by stored values and by the counts of
resolutions, and a step by its outputs besides. Whatever does not depend on these, such as the root
cause, is after a step what it was before. What the attempts of a failed step store is not stated
here.
-/

namespace Journey

variable {β μ σ κ : Type}

/-- What steps leave alone: it depends neither on the stored values nor on the counts. -/
structure Context.Untouched (g : Context → κ) : Prop where
  set : ∀ (c : Context) (key : String) (value : Value), g (c.set key value) = g c
  metrics : ∀ (c : Context) (m : LocatorMetrics), g { c with metrics := m } = g c

theorem Context.untouched_lastError : Untouched Context.lastError :=
  ⟨fun _ _ _ => rfl, fun _ _ => rfl⟩

namespace Primitive

theorem keeps_perform {g : Context → κ}
    (hg : ∀ (c : Context) (key : String) (value : Value), g (c.set key value) = g c) (p : Primitive)
    (input : ActionInput) : (p.perform input).Keeps g := by
  by_cases storing : p = .ctxSet
  · subst storing
    have stores := stores_store input
    rw [perform]
    generalize store input = d at stores ⊢
    cases stores with
    | refused named => trivial
    | written => exact ⟨fun c => hg c _ _, trivial⟩
  · exact (silent_perform storing input).keeps g

end Primitive

namespace Engine

theorem keeps_locate {g : Context → κ}
    (hg : ∀ (c : Context) (m : LocatorMetrics), g { c with metrics := m } = g c) (e : Engine β μ)
    (spec : ActionSpec) (pack target : Option String) :
    (e.locate spec pack target).Keeps fun n => g n.context := by
  cases target with
  | none => trivial
  | some key =>
      cases pack with
      | none => trivial
      | some pack =>
          refine ((Dialogue.keeps_const () _).within fun m n _ => ?_).bind ?_
          · exact hg n.context m
          rintro (failure | resolved)
          · dsimp only
            split <;> trivial
          · exact ⟨fun _ => rfl, trivial⟩

theorem keeps_dispatch {g : Context → κ}
    (hg : ∀ (c : Context) (key : String) (value : Value), g (c.set key value) = g c)
    (e : Engine β μ) (spec : ActionSpec) (input : ActionInput) :
    (e.dispatch spec input).Keeps fun n => g n.context := by
  simp only [dispatch]
  split
  · exact (Primitive.keeps_perform hg _ input).within fun _ _ same => same
  · intro n
    exact (Dialogue.keeps_const () _).within fun _ _ _ => rfl

theorem keeps_attempt {g : Context → κ} (hg : Context.Untouched g) (e : Engine β μ)
    (call : ActionCall) (pack : Option String) (limit : Nat) :
    (e.attempt call pack limit).Keeps fun n => g n.context := by
  simp only [attempt]
  split
  · trivial
  · intro n
    dsimp only
    split
    · trivial
    · refine (keeps_locate hg.metrics e _ pack _).bind ?_
      rintro (error | handle)
      · trivial
      · exact keeps_dispatch hg.set e _ _

theorem runAttempt_untouched {g : Context → κ} (hg : Context.Untouched g) (e : Engine β μ)
    (call : ActionCall) (pack : Option String) (limit : Nat) (scene : Scene β μ) :
    g (e.runAttempt call pack limit scene).2.context = g scene.context :=
  (keeps_attempt hg e call pack limit).run _ _ _ _

theorem attemptFrom_untouched {g : Context → κ} (hg : Context.Untouched g) (e : Engine β μ)
    (step : Step) (call : ActionCall) (pack : Option String) (limit spare number : Nat)
    (scene : Scene β μ) :
    g (e.attemptFrom step call pack limit spare number scene).2.context = g scene.context := by
  have first := runAttempt_untouched hg e call pack limit scene
  induction spare generalizing number scene with
  | zero => exact first
  | succ spare ih =>
      simp only [attemptFrom]
      split
      · exact (ih _ _ (runAttempt_untouched hg e call pack limit _)).trans first
      · exact first

theorem carryOut_untouched {g : Context → κ} (hg : Context.Untouched g) (e : Engine β μ)
    (step : Step) (call : ActionCall) (pack : Option String) (scene : Scene β μ) :
    g (e.carryOut step call pack scene).2.context = g scene.context := by
  simp only [carryOut]
  split
  · rfl
  · exact attemptFrom_untouched hg e step call pack _ _ _ scene

theorem carryOutAll_untouched {g : Context → κ} (hg : Context.Untouched g) (e : Engine β μ)
    (step : Step) (pack : Option String) (total : Nat) (composite : Params) (index : Nat)
    (actions : List ExpandedStep) (scene : Scene β μ) :
    g (e.carryOutAll step pack total composite index actions scene).2.context =
      g scene.context := by
  induction actions generalizing index scene with
  | nil => rfl
  | cons child rest ih =>
      have first := carryOut_untouched hg e step (child.call composite) pack scene
      simp only [carryOutAll]
      split
      · exact (ih _ _).trans first
      · exact first

theorem carryOutStep_untouched {g : Context → κ} (hg : Context.Untouched g) (e : Engine β μ)
    (step : Step) (pack : Option String) (scene : Scene β μ) :
    g (e.carryOutStep step pack scene).2.context = g scene.context := by
  simp only [carryOutStep]
  cases step.kind with
  | semantic =>
      simp only [carryOutComposite]
      split
      · rfl
      · split
        · rfl
        · exact carryOutAll_untouched hg e step pack _ _ _ _ scene
  | atomic | plugin _ => exact carryOut_untouched hg e step step.call pack scene

theorem gather_context (e : Engine β μ) (step : Step) (r : StepResult) (scene : Scene β μ) :
    (e.gather step r scene).2.context = scene.context := by
  simp only [gather]
  split <;> rfl

theorem gather_success (e : Engine β μ) (step : Step) (r : StepResult) (scene : Scene β μ) :
    (e.gather step r scene).1.success = r.success := by
  simp only [gather]
  split <;> rfl

theorem storeOutputs_untouched {g : Context → κ} (hg : Context.Untouched g) (step : Step)
    (r : StepResult) (scene : Scene β μ) :
    g (storeOutputs step r scene).context = g scene.context := by
  simp only [storeOutputs]
  split
  · exact hg.set _ _ _
  · rfl

/-- A whole step keeps what does not depend on values and counts. -/
theorem executeStep_untouched {g : Context → κ} (hg : Context.Untouched g) (e : Engine β μ)
    (step : Step) (pack : Option String) (scene : Scene β μ) :
    g (e.executeStep step pack scene).2.context = g scene.context := by
  have h := carryOutStep_untouched hg e step pack scene
  simp only [executeStep]
  split
  · exact (storeOutputs_untouched hg step _ _).trans h
  · rw [gather_context]
    exact h

end Engine
end Journey
