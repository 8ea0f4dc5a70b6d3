import Journey.Proofs.Run.Turn

/-!
A run beside its calm twin, in which nobody raises the flag. What is carried out never looks at the
flag, so that one step gives the same on both sides, whenever the flag is raised meanwhile; blocks look
at it between steps only. So the results agree up to the step before which the flag is seen to be up,
and from there on everything is passed over.
-/

namespace Journey

variable {β μ σ α : Type}

/-- The same world, in which the flag is down and nobody is going to raise it. -/
def World.calm (w : World β) : World β := { w with cancelled := false, interrupt := none }

/-- The same browser, but for raising the flag. -/
def Browser.muted (b : Browser β) : Browser β where
  react now state call := { b.react now state call with cancels := false }

def Scene.calm (s : Scene β μ) : Scene β μ := { s with world := s.world.calm }

def Engine.muted (e : Engine β μ) : Engine β μ := { e with browser := e.browser.muted }

theorem Dialogue.run_muted (browser : Browser β) (deadline : Option Nat) (d : Dialogue σ α)
    (w : World β) (s : σ) :
    d.run browser.muted deadline w.calm s =
      ⟨(d.run browser deadline w s).result, (d.run browser deadline w s).world.calm,
        (d.run browser deadline w s).notes⟩ := by
  induction d generalizing w s with
  | done a => rfl
  | sleep ms next ih =>
      have same : w.calm.reaches deadline ms = w.reaches deadline ms := rfl
      simp only [Dialogue.run, same]
      split
      · exact ih (w.sleep ms) s
      · rfl
  | clock next ih => exact ih _ _ _
  | note f next ih => exact ih _ _
  | consult next ih => exact ih _ _ _
  | ask call next ih =>
      let r := browser.react w.now w.browser call
      have same : w.calm.reaches deadline r.delay = w.reaches deadline r.delay := rfl
      have react : browser.muted.react w.calm.now w.calm.browser call = { r with cancels := false } :=
        rfl
      simp only [Dialogue.run, react, same]
      split
      · exact ih r.outcome (settle w call r) s
      · rfl

namespace Scene

theorem calm_look (s : Scene β μ) (policy : BlockPolicy) : s.calm.look policy = (false, s.calm) := by
  simp only [look]
  split <;> rfl

theorem look_calm (s : Scene β μ) (policy : BlockPolicy) : (s.look policy).2.calm = s.calm := by
  simp only [look]
  split
  · rfl
  · simp only [calm, World.look, World.calm]
    split <;> rfl

end Scene

namespace Engine

variable (e : Engine β μ)

theorem runAttempt_muted (call : ActionCall) (pack : Option String) (limit : Nat)
    (s : Scene β μ) :
    e.muted.runAttempt call pack limit s.calm =
      (e.runAttempt call pack limit s).map id Scene.calm := by
  have same := Dialogue.run_muted e.browser (some (s.world.now + limit)) (e.attempt call pack limit)
    s.world ⟨s.context, s.memory, none, []⟩
  have muted : e.muted.runAttempt call pack limit s.calm =
      let ending := (e.attempt call pack limit).run e.browser.muted (some (s.world.now + limit))
        s.world.calm ⟨s.context, s.memory, none, []⟩
      (⟨ending.result.getD (.error (.timeout limit)), ending.notes.tier, ending.notes.diagnostics⟩,
        ⟨ending.world, ending.notes.context, ending.notes.memory⟩) := rfl
  rw [muted, same]
  rfl

theorem attemptFrom_muted (step : Step) (call : ActionCall) (pack : Option String)
    (limit spare number : Nat) (s : Scene β μ) :
    e.muted.attemptFrom step call pack limit spare number s.calm =
      (e.attemptFrom step call pack limit spare number s).map id Scene.calm := by
  induction spare generalizing number s with
  | zero =>
      simp only [attemptFrom, e.runAttempt_muted]
      rfl
  | succ spare ih =>
      have again (r : AttemptResult) : e.muted.triesAgain r = e.triesAgain r := rfl
      simp only [attemptFrom, e.runAttempt_muted, Prod.map_fst, Prod.map_snd, id, again]
      split
      · exact ih (number + 1) (e.rest number (e.runAttempt call pack limit s).2)
      · rfl

theorem carryOut_muted (step : Step) (call : ActionCall) (pack : Option String) (s : Scene β μ) :
    e.muted.carryOut step call pack s.calm =
      (e.carryOut step call pack s).map id Scene.calm := by
  have limit : e.muted.settings = e.settings := rfl
  simp only [carryOut, limit]
  cases e.settings.timeouts.stepTimeout? step.timeout with
  | none => rfl
  | some limit => exact e.attemptFrom_muted step call pack limit _ 1 s

theorem carryOutAll_muted (step : Step) (pack : Option String) (total : Nat) (composite : Params)
    (index : Nat) (actions : List ExpandedStep) (s : Scene β μ) :
    e.muted.carryOutAll step pack total composite index actions s.calm =
      (e.carryOutAll step pack total composite index actions s).map id Scene.calm := by
  induction actions generalizing index s with
  | nil => rfl
  | cons child rest ih =>
      simp only [carryOutAll, e.carryOut_muted, Prod.map_fst, Prod.map_snd, id, ih]
      split <;> rfl

theorem carryOutComposite_muted (step : Step) (pack : Option String) (s : Scene β μ) :
    e.muted.carryOutComposite step pack s.calm =
      (e.carryOutComposite step pack s).map id Scene.calm := by
  have template : e.muted.template = e.template := rfl
  have expander : e.muted.expander = e.expander := rfl
  have context : s.calm.context = s.context := rfl
  simp only [carryOutComposite, template, expander, context, e.carryOutAll_muted]
  cases (Scope.mk none s.context e.template).resolveParams step.params with
  | error error => rfl
  | ok params =>
      dsimp only
      cases e.expander.expand step.keyword params s.context <;> rfl

theorem carryOutStep_muted (step : Step) (pack : Option String) (s : Scene β μ) :
    e.muted.carryOutStep step pack s.calm =
      (e.carryOutStep step pack s).map id Scene.calm := by
  simp only [carryOutStep]
  cases step.kind with
  | semantic => exact e.carryOutComposite_muted step pack s
  | atomic | plugin _ =>
      simp only [e.carryOut_muted]
      rfl

theorem gather_muted (step : Step) (r : StepResult) (s : Scene β μ) :
    e.muted.gather step r s.calm = (e.gather step r s).map id Scene.calm := by
  have collector : e.muted.collector = e.collector := rfl
  simp only [gather, collector]
  cases e.collector with
  | none => rfl
  | some collect =>
      have same := Dialogue.run_muted e.browser none (collect step.source r.label) s.world s.memory
      have ran : (collect step.source r.label).run e.muted.browser none s.calm.world s.calm.memory =
        (collect step.source r.label).run e.browser.muted none s.world.calm s.memory := rfl
      simp only [ran, same]
      rfl

theorem storeOutputs_calm (step : Step) (r : StepResult) (s : Scene β μ) :
    storeOutputs step r s.calm = (storeOutputs step r s).calm := by
  simp only [storeOutputs]
  split <;> rfl

/-- A step goes the same way whether the flag is raised in the course of it or not. -/
theorem executeStep_muted (step : Step) (pack : Option String) (s : Scene β μ) :
    e.muted.executeStep step pack s.calm = (e.executeStep step pack s).map id Scene.calm := by
  simp only [executeStep, e.carryOutStep_muted, Prod.map_fst, Prod.map_snd, id]
  split
  · rw [storeOutputs_calm]
    rfl
  · exact e.gather_muted step _ _

end Engine

/-- The results agree up to a step, and from there on those on the first side are passed over. -/
def Truncates (rs rs₀ : List StepResult) : Prop :=
  ∃ common rest rest₀, rs = common ++ rest ∧ rs₀ = common ++ rest₀ ∧
    ∀ r ∈ rest, r.isSkipped = true

namespace Truncates

variable {rs rs₀ : List StepResult}

theorem refl (rs : List StepResult) : Truncates rs rs := ⟨rs, [], [], by simp, by simp, by simp⟩

theorem of_skipped (h : ∀ r ∈ rs, r.isSkipped = true) (rs₀ : List StepResult) : Truncates rs rs₀ :=
  ⟨[], rs, rs₀, rfl, rfl, h⟩

theorem behind (h : Truncates rs rs₀) (first : List StepResult) :
    Truncates (first ++ rs) (first ++ rs₀) := by
  obtain ⟨common, rest, rest₀, rfl, rfl, skipped⟩ := h
  exact ⟨first ++ common, rest, rest₀, by simp, by simp, skipped⟩

theorem before (h : Truncates rs rs₀) {more : List StepResult}
    (passed : ∀ r ∈ more, r.isSkipped = true) (more₀ : List StepResult) :
    Truncates (rs ++ more) (rs₀ ++ more₀) := by
  obtain ⟨common, rest, rest₀, rfl, rfl, skipped⟩ := h
  refine ⟨common, rest ++ more, rest₀ ++ more₀, by simp, by simp, fun r mem => ?_⟩
  exact (List.mem_append.mp mem).elim (skipped r) (passed r)

/-- What was carried out on the first side is there on the other, with all that comes before it. -/
theorem prefix_of_carriedOut (h : Truncates rs rs₀) {first last : List StepResult} {r : StepResult}
    (place : rs = first ++ r :: last) (carriedOut : r.isSkipped = false) : first ++ [r] <+: rs₀ := by
  obtain ⟨common, rest, rest₀, split, rfl, skipped⟩ := h
  have whole : first ++ [r] ++ last = common ++ rest := by rw [← split, place]; simp
  rcases List.append_eq_append_iff.mp whole with ⟨more, same, -⟩ | ⟨more, same, late⟩
  · exact ⟨more ++ rest₀, by rw [same]; simp⟩
  · rcases List.eq_nil_or_concat more with rfl | ⟨others, x, rfl⟩
    · rw [same, List.append_nil]
      exact List.prefix_append _ _
    · -- Otherwise it would be among those that are passed over.
      rw [List.concat_eq_append, ← List.append_assoc] at same
      obtain ⟨-, rfl⟩ := List.append_singleton_inj.mp same
      rw [skipped r (by simp [late])] at carriedOut
      cases carriedOut

end Truncates

namespace Engine

variable (e : Engine β μ)

theorem skipped_passedOver (steps : List Step) (reason : String) :
    ∀ r ∈ steps.map (StepResult.passedOver · reason), r.isSkipped = true := by
  intro r mem
  obtain ⟨step, -, rfl⟩ := List.mem_map.mp mem
  rfl

/-- A block goes like its calm twin, unless it sees the flag up; then it passes over what is left. -/
theorem runSteps_muted (block : String) (policy : BlockPolicy) (pack : Option String) (index : Nat)
    (steps : List Step) {t : Tally} (calm : t.cancelled = false) (s : Scene β μ) :
    let ran := e.runSteps block policy pack index steps t s
    let still := e.muted.runSteps block policy pack index steps t s.calm
    (ran.2.1.cancelled = false ∧ still = (ran.1, ran.2.1, ran.2.2.calm)) ∨
      (ran.2.1.cancelled = true ∧ Truncates ran.1 still.1) := by
  induction steps generalizing index t s with
  | nil => exact .inl ⟨calm, rfl⟩
  | cons step rest ih =>
      simp only [runSteps]
      cases stop : t.stop with
      | some reason =>
          rcases ih (index + 1) calm s with ⟨down, same⟩ | ⟨up, cut⟩
          · exact .inl ⟨down, by simp only [same]⟩
          · exact .inr ⟨up, cut.behind [_]⟩
      | none =>
          simp only [s.calm_look policy]
          cases look : (s.look policy).1 with
          | true =>
              -- Whatever the twin does, here nothing more is carried out.
              have stopped := e.runSteps_of_stop block policy pack (index + 1) rest
                (show t.cancel.stop = some "cancelled" from rfl)
                ((s.look policy).2.cancelBefore t step)
              simp only [if_true, stopped]
              refine .inr ⟨rfl, .of_skipped ?_ _⟩
              exact List.forall_mem_cons.mpr ⟨rfl, skipped_passedOver rest "cancelled"⟩
          | false =>
              have start : s.calm.atStep block index =
                  ((s.look policy).2.atStep block index).calm := by
                rw [← s.look_calm policy]; rfl
              simp only [Bool.false_eq_true, if_false, start, e.executeStep_muted, Prod.map_fst,
                Prod.map_snd, id]
              have onward := ih (index + 1) ((Tally.cancelled_after policy t step
                (e.executeStep step pack ((s.look policy).2.atStep block index)).1).trans calm)
                (e.executeStep step pack ((s.look policy).2.atStep block index)).2
              rcases onward with ⟨down, same⟩ | ⟨up, cut⟩
              · exact .inl ⟨down, by simp only [same]⟩
              · exact .inr ⟨up, cut.behind [_]⟩

theorem runBlock_muted (block : String) (policy : BlockPolicy) (pack : Option String)
    (steps : List Step) (s : Scene β μ) :
    let ran := e.runBlock block policy pack steps s
    let still := e.muted.runBlock block policy pack steps s.calm
    still = ran.map id Scene.calm ∨
      (ran.1.cancelled = true ∧ ran.1.success = false ∧ Truncates ran.1.steps still.1.steps) := by
  have goes := e.runSteps_muted block policy pack 0 steps (t := .zero) rfl s
  simp only [runBlock]
  rcases goes with ⟨-, same⟩ | ⟨up, cut⟩
  · refine .inl ?_
    simp only [same]
    split <;> rfl
  · exact .inr ⟨up, by simp [Tally.success, up], cut⟩

theorem runPhases_halted (goesOn : Bool) (pack : Option String) (phases : List Phase)
    (s : Scene β μ) : e.runPhases goesOn pack true phases s = (phases.map e.haltedPhase, s) := by
  induction phases with
  | nil => rfl
  | cons phase rest ih => simp [runPhases, ih]

theorem skipped_halted (phases : List Phase) :
    ∀ r ∈ (phases.map e.haltedPhase).flatMap PhaseResult.steps, r.isSkipped = true := by
  intro r mem
  obtain ⟨p, among, shown⟩ := List.mem_flatMap.mp mem
  obtain ⟨phase, -, rfl⟩ := List.mem_map.mp among
  exact skipped_passedOver phase.steps _ r shown

theorem runPhases_muted (goesOn : Bool) (pack : Option String) (halted : Bool)
    (phases : List Phase) (s : Scene β μ) :
    let ran := e.runPhases goesOn pack halted phases s
    let still := e.muted.runPhases goesOn pack halted phases s.calm
    still = ran.map id Scene.calm ∨
      Truncates (ran.1.flatMap PhaseResult.steps) (still.1.flatMap PhaseResult.steps) := by
  induction phases generalizing halted s with
  | nil => exact .inl (by cases halted <;> rfl)
  | cons phase rest ih =>
      cases halted with
      | true =>
          rw [runPhases_halted, runPhases_halted]
          exact .inl rfl
      | false =>
          have policy : e.muted.phasePolicy phase = e.phasePolicy phase := rfl
          have shown (r : BlockResult) : e.muted.phaseResult phase r = e.phaseResult phase r := rfl
          simp only [runPhases, policy, shown]
          rcases e.runBlock_muted phase.name (e.phasePolicy phase) pack phase.steps s with
            same | ⟨up, failed, cut⟩
          · simp only [same, Prod.map_fst, Prod.map_snd, id]
            rcases ih _ _ with same' | cut'
            · exact .inl (by rw [same']; rfl)
            · exact .inr (cut'.behind _)
          · rw [up, failed, Bool.not_false, Bool.true_or, Bool.true_and, runPhases_halted]
            exact .inr (cut.before (e.skipped_halted rest) _)

theorem runBlocks_trace (w : Workflow) (s : Scene β μ) :
    let setup := e.runBlock "setup" .strict w.locatorPack w.setup s
    let phases := e.runPhases (e.continuesPast w) w.locatorPack (!setup.1.success) w.phases setup.2
    (e.runBlocks w s).1.trace = setup.1.steps ++ phases.1.flatMap PhaseResult.steps := rfl

theorem runBlocks_muted (w : Workflow) (s : Scene β μ) :
    Truncates (e.runBlocks w s).1.trace (e.muted.runBlocks w s.calm).1.trace := by
  have goesOn : e.muted.continuesPast w = e.continuesPast w := rfl
  rw [runBlocks_trace, runBlocks_trace]
  simp only [goesOn]
  rcases e.runBlock_muted "setup" .strict w.locatorPack w.setup s with same | ⟨-, failed, cut⟩
  · simp only [same, Prod.map_fst, Prod.map_snd, id]
    rcases e.runPhases_muted (e.continuesPast w) w.locatorPack _ w.phases
      (e.runBlock "setup" .strict w.locatorPack w.setup s).2 with same' | cut'
    · rw [same']
      exact .refl _
    · exact cut'.behind _
  · rw [failed, Bool.not_false, runPhases_halted]
    exact cut.before (e.skipped_halted w.phases) _

theorem seed_muted (vars : List (String × Value)) (context : Context) :
    e.muted.seed vars context = e.seed vars context := by
  induction vars generalizing context with
  | nil => rfl
  | cons entry rest ih =>
      have template : e.muted.template = e.template := rfl
      simp only [seed, template, ih]

theorem prepare_muted (w : Workflow) : e.muted.prepare w = e.prepare w := by
  have resolver : e.muted.resolver = e.resolver := rfl
  simp only [prepare, resolver, e.seed_muted]

/-- A run and its calm twin agree up to the step before which the run sees the flag up, and nothing
of setup and phases is carried out in the run from there on. -/
theorem run_muted {e : Engine β μ} {w : Workflow} {r : WorkflowResult} {world world' : World β}
    {memory memory' : μ} (run : e.run w world memory = (.ok r, world', memory')) :
    ∃ r₀ world₀ memory₀, e.muted.run w world.calm memory = (.ok r₀, world₀, memory₀) ∧
      Truncates r.trace r₀.trace := by
  obtain ⟨context, s', c, prepared, ran, -, -, -⟩ := run_tells run
  have same := (e.prepare_muted w).trans prepared
  have twin := e.runBlocks_muted w ⟨world, context, memory⟩
  rw [ran] at twin
  have goes : e.muted.run w world.calm memory =
      (.ok (e.muted.runBlocks w ⟨world.calm, context, memory⟩).1,
        (e.muted.runBlocks w ⟨world.calm, context, memory⟩).2.world,
        (e.muted.runBlocks w ⟨world.calm, context, memory⟩).2.memory) := by
    rw [Engine.run, same]
  exact ⟨_, _, _, goes, twin⟩

end Engine
end Journey
