import Journey.Proofs.Run.Attempt
import Journey.Proofs.Run.Turn

/-!
The trail of a step: the attempts that it makes, those of each action of a composite step in order,
and the scenes between them. Between two attempts only the clock moves. The trails of the steps of a
run, one after the other, are all the attempts that the run makes; what an attempt does is stated for
the attempt alone.
-/

namespace Journey

variable {β μ : Type}

/-- The two scenes are the same but for the clock. -/
def Scene.Waits (s s' : Scene β μ) : Prop := ∃ ms, s' = { s with world := s.world.sleep ms }

theorem Scene.Waits.refl (s : Scene β μ) : s.Waits s := ⟨0, rfl⟩

theorem Scene.Waits.trans {s m s' : Scene β μ} (h : s.Waits m) (h' : m.Waits s') : s.Waits s' := by
  obtain ⟨ms, rfl⟩ := h
  obtain ⟨more, rfl⟩ := h'
  exact ⟨ms + more, by simp [World.sleep, Nat.add_assoc]⟩

namespace Engine

variable (e : Engine β μ)

/-- Attempt `number` of an action and the further ones that are made. -/
def attemptsFrom (call : ActionCall) (pack : Option String) (limit : Nat) :
    (spare number : Nat) → Scene β μ → List (Attempt β μ)
  | 0, _, scene => [⟨call, limit, scene⟩]
  | spare + 1, number, scene =>
      let ran := e.runAttempt call pack limit scene
      ⟨call, limit, scene⟩ :: if e.triesAgain ran.1 then
        attemptsFrom call pack limit spare (number + 1) (e.rest number ran.2) else []

def attemptsOf (step : Step) (call : ActionCall) (pack : Option String) (scene : Scene β μ) :
    List (Attempt β μ) :=
  match e.settings.timeouts.stepTimeout? step.timeout with
  | none => []
  | some limit => e.attemptsFrom call pack limit (e.attemptBound step - 1) 1 scene

def attemptsOfAll (step : Step) (pack : Option String) (composite : Params) :
    List ExpandedStep → Scene β μ → List (Attempt β μ)
  | [], _ => []
  | child :: rest, scene =>
      let ran := e.carryOut step (child.call composite) pack scene
      e.attemptsOf step (child.call composite) pack scene ++
        if ran.1.success then attemptsOfAll step pack composite rest ran.2 else []

/-- The actions of a composite step with its parameters, if they can be had. -/
def expansion? (step : Step) (context : Context) : Option (Params × List ExpandedStep) :=
  match (Scope.mk none context e.template).resolveParams step.params with
  | .error _ => none
  | .ok params =>
      match e.expander.expand step.keyword params context with
      | .error _ => none
      | .ok actions => some (params, actions)

/-- The attempts that a step makes. -/
def attemptsOfStep (step : Step) (pack : Option String) (scene : Scene β μ) : List (Attempt β μ) :=
  match step.kind with
  | .semantic =>
      match e.expansion? step scene.context with
      | some (params, actions) => e.attemptsOfAll step pack params actions scene
      | none => []
  | .atomic | .plugin _ => e.attemptsOf step step.call pack scene

end Engine

namespace Attempt

variable {e : Engine β μ} {pack : Option String}

/-- Each attempt begins where the one before it ended, but for the clock. -/
def Linked (e : Engine β μ) (pack : Option String) :
    Scene β μ → List (Attempt β μ) → Scene β μ → Prop
  | s, [], s' => s.Waits s'
  | s, x :: xs, s' => s.Waits x.before ∧ Linked e pack (x.after e pack) xs s'

theorem Linked.of_waits {s m s' : Scene β μ} {xs : List (Attempt β μ)} (h' : Linked e pack m xs s')
    (h : s.Waits m) : Linked e pack s xs s' := by
  cases xs with
  | nil => exact h.trans h'
  | cons x xs => exact ⟨h.trans h'.1, h'.2⟩

theorem Linked.append {s m s' : Scene β μ} {xs ys : List (Attempt β μ)} (h : Linked e pack s xs m)
    (h' : Linked e pack m ys s') : Linked e pack s (xs ++ ys) s' := by
  induction xs generalizing s with
  | nil => exact h'.of_waits h
  | cons x xs ih => exact ⟨h.1, ih h.2⟩

end Attempt

namespace Engine

variable (e : Engine β μ)

theorem attemptsFrom_linked (step : Step) (call : ActionCall) (pack : Option String)
    (limit spare number : Nat) (scene : Scene β μ) :
    Attempt.Linked e pack scene (e.attemptsFrom call pack limit spare number scene)
      (e.attemptFrom step call pack limit spare number scene).2 := by
  induction spare generalizing number scene with
  | zero => exact ⟨.refl _, .refl _⟩
  | succ spare ih =>
      simp only [attemptsFrom, attemptFrom]
      split
      · exact ⟨.refl _, (ih _ _).of_waits ⟨_, rfl⟩⟩
      · exact ⟨.refl _, .refl _⟩

theorem attemptsOf_linked (step : Step) (call : ActionCall) (pack : Option String)
    (scene : Scene β μ) :
    Attempt.Linked e pack scene (e.attemptsOf step call pack scene)
      (e.carryOut step call pack scene).2 := by
  simp only [attemptsOf, carryOut]
  cases e.settings.timeouts.stepTimeout? step.timeout with
  | none => exact .refl _
  | some limit => exact e.attemptsFrom_linked step call pack limit _ 1 scene

theorem carryOutAll_cons (step : Step) (pack : Option String) (total : Nat) (composite : Params)
    (index : Nat) (child : ExpandedStep) (rest : List ExpandedStep) (scene : Scene β μ) :
    (e.carryOutAll step pack total composite index (child :: rest) scene).2 =
      let ran := e.carryOut step (child.call composite) pack scene
      if ran.1.success then (e.carryOutAll step pack total composite (index + 1) rest ran.2).2
      else ran.2 :=
  apply_ite Prod.snd _ _ _

theorem attemptsOfAll_linked (step : Step) (pack : Option String) (total : Nat)
    (composite : Params) (index : Nat) (actions : List ExpandedStep) (scene : Scene β μ) :
    Attempt.Linked e pack scene (e.attemptsOfAll step pack composite actions scene)
      (e.carryOutAll step pack total composite index actions scene).2 := by
  induction actions generalizing index scene with
  | nil => exact .refl _
  | cons child rest ih =>
      have first := e.attemptsOf_linked step (child.call composite) pack scene
      rw [carryOutAll_cons, attemptsOfAll]
      dsimp only
      split
      · exact first.append (ih _ _)
      · rw [List.append_nil]
        exact first

/-- The attempts of a step lead from the scene in which it is carried out to the one it leaves. -/
theorem attemptsOfStep_linked (step : Step) (pack : Option String) (scene : Scene β μ) :
    Attempt.Linked e pack scene (e.attemptsOfStep step pack scene)
      (e.carryOutStep step pack scene).2 := by
  simp only [attemptsOfStep, carryOutStep, expansion?]
  cases step.kind with
  | semantic =>
      simp only [carryOutComposite]
      cases (Scope.mk none scene.context e.template).resolveParams step.params with
      | error error => exact .refl _
      | ok params =>
          dsimp only
          cases e.expander.expand step.keyword params scene.context with
          | error error => exact .refl _
          | ok actions => exact e.attemptsOfAll_linked step pack _ params 1 actions scene
  | atomic | plugin _ => exact e.attemptsOf_linked step step.call pack scene

theorem attemptsFrom_call (call : ActionCall) (pack : Option String) (limit spare number : Nat)
    (scene : Scene β μ) : ∀ x ∈ e.attemptsFrom call pack limit spare number scene, x.call = call := by
  induction spare generalizing number scene with
  | zero =>
      intro x mem
      rw [List.mem_singleton.mp mem]
  | succ spare ih =>
      refine List.forall_mem_cons.mpr ⟨rfl, fun x mem => ?_⟩
      split at mem
      · exact ih _ _ x mem
      · cases mem

theorem attemptsOf_call {step : Step} {call : ActionCall} {pack : Option String} {scene : Scene β μ}
    {x : Attempt β μ} (mem : x ∈ e.attemptsOf step call pack scene) : x.call = call := by
  simp only [attemptsOf] at mem
  split at mem
  · cases mem
  · exact e.attemptsFrom_call call pack _ _ _ scene x mem

theorem attemptsOfAll_call (step : Step) (pack : Option String) (composite : Params)
    (actions : List ExpandedStep) (scene : Scene β μ) :
    ∀ x ∈ e.attemptsOfAll step pack composite actions scene,
      ∃ child ∈ actions, x.call = child.call composite := by
  induction actions generalizing scene with
  | nil => exact List.forall_mem_nil _
  | cons child rest ih =>
      intro x mem
      rw [attemptsOfAll] at mem
      rcases List.mem_append.mp mem with first | later
      · exact ⟨child, List.mem_cons_self, e.attemptsOf_call first⟩
      · split at later
        · obtain ⟨other, among, same⟩ := ih _ x later
          exact ⟨other, List.mem_cons_of_mem _ among, same⟩
        · cases later

/-- An attempt of a step is at its own action, or at one that it expands to. -/
theorem attemptsOfStep_call {step : Step} {pack : Option String} {scene : Scene β μ}
    {x : Attempt β μ} (mem : x ∈ e.attemptsOfStep step pack scene) :
    (step.kind ≠ .semantic ∧ x.call = step.call) ∨
      (step.kind = .semantic ∧ ∃ params actions, e.expansion? step scene.context =
        some (params, actions) ∧ ∃ child ∈ actions, x.call = child.call params) := by
  simp only [attemptsOfStep] at mem
  cases kind : step.kind with
  | semantic =>
      rw [kind] at mem
      cases expanded : e.expansion? step scene.context with
      | none =>
          rw [expanded] at mem
          cases mem
      | some expansion =>
          rw [expanded] at mem
          exact .inr ⟨rfl, _, _, rfl, e.attemptsOfAll_call step pack _ _ scene x mem⟩
  | atomic | plugin _ =>
      rw [kind] at mem
      exact .inl ⟨by simp, e.attemptsOf_call mem⟩

theorem executeStep_metrics (step : Step) (pack : Option String) (scene : Scene β μ) :
    (e.executeStep step pack scene).2.context.metrics =
      (e.carryOutStep step pack scene).2.context.metrics := by
  simp only [executeStep]
  split
  · simp only [storeOutputs]
    split <;> rfl
  · rw [gather_context]

end Engine

/-- The attempts of a turn; a step that is passed over makes none. -/
def Turn.attempts (e : Engine β μ) (pack : Option String) (x : Turn β μ) : List (Attempt β μ) :=
  if x.result.isSkipped then [] else e.attemptsOfStep x.step pack x.scene

theorem Turn.mem_attempts {e : Engine β μ} {pack : Option String} {x : Turn β μ} {y : Attempt β μ}
    (mem : y ∈ x.attempts e pack) : y ∈ e.attemptsOfStep x.step pack x.scene := by
  simp only [attempts] at mem
  split at mem
  · cases mem
  · exact mem

end Journey
