import Journey.Proofs.Run.Inlining
import Journey.Proofs.Run.Metrics
import Journey.Proofs.Run.Retry
import Journey.Proofs.Run.Touch

/-!
Targets that are written for a step. A step of a single action has resolved its target in the attempt in
which it succeeds. A composite step makes the attempts of the actions that it expands to, and those bring
targets of their own: the one that is written for the step is not looked at.
-/

namespace Journey

variable {β μ : Type}

/-- The step with another target. -/
def Step.retarget (step : Step) (target : Option String) : Step := { step with target := target }

namespace Engine

variable {e : Engine β μ}

theorem target_of_resolveCall {call : ActionCall} {context : Context} {params : Params}
    {target : Option String} (h : e.resolveCall call context = .ok (params, target)) {text : String}
    (given : call.target = some text) :
    ∃ key, target = some key ∧
      Scope.interpolate ⟨call.composite, context, e.template⟩ text = .ok key := by
  simp only [resolveCall, given] at h
  split at h
  case h_1 => cases h
  case h_2 =>
    obtain ⟨key, filled, same⟩ := Except.ok_of_map h
    obtain ⟨rfl, rfl⟩ := Prod.mk.inj same
    exact ⟨key, rfl, filled⟩

end Engine

namespace Attempt

variable {e : Engine β μ} {pack : Option String} {x : Attempt β μ} {text : String}

/-- The attempt resolves the target that the text comes to when its placeholders are filled in where the
attempt begins. -/
def Resolves (e : Engine β μ) (pack : Option String) (x : Attempt β μ) (text : String) : Prop :=
  ∃ packId key,
    Scope.interpolate ⟨x.call.composite, x.before.context, e.template⟩ text = .ok key ∧
      x.sought? e pack = some (packId, key)

theorem Resolves.seeks (h : x.Resolves e pack text) : x.seeks e pack = true := by
  obtain ⟨packId, key, -, sought⟩ := h
  rw [Attempt.seeks, search?, sought]
  rfl

/-- Without a pack there is nothing to look for a target in. -/
theorem not_seeks_of_no_pack (e : Engine β μ) (x : Attempt β μ) : x.seeks e none = false := by
  have nothing : x.sought? e none = none := by
    simp only [sought?]
    split <;> simp_all
  rw [seeks, search?, nothing]
  rfl

/-- An attempt succeeds only after it has resolved its target, if it has one. -/
theorem resolves_of_outcome {outputs : Outputs} (good : (x.result e pack).outcome = .ok outputs)
    (given : x.call.target = some text) : x.Resolves e pack text := by
  obtain ⟨spec, input, invoked⟩ := invoked_of_outcome good
  obtain ⟨params, target, found, resolved, -, handed⟩ := invocation_inv invoked
  obtain ⟨key, rfl, filled⟩ := Engine.target_of_resolveCall resolved given
  rcases handed with ⟨absent, -⟩ | ⟨-, passed⟩
  · cases absent
  · obtain ⟨search, searched, -⟩ := passes_inv passed
    obtain ⟨⟨packId, key'⟩, sought, -⟩ := Option.map_eq_some_iff.mp searched
    refine ⟨packId, key, filled, ?_⟩
    simp only [sought?, found, resolved] at sought ⊢
    cases pack with
    | none => cases sought
    | some other =>
        obtain ⟨rfl, rfl⟩ := Prod.mk.inj (Option.some.inj sought)
        rfl

end Attempt

namespace Engine

variable {e : Engine β μ} {pack : Option String} {scene : Scene β μ}

/-- An action that succeeds does so in one of its attempts. -/
theorem attempt_of_carryOut {step : Step} {call : ActionCall}
    (good : (e.carryOut step call pack scene).1.success = true) :
    ∃ x ∈ e.attemptsOf step call pack scene, ∃ outputs, (x.result e pack).outcome = .ok outputs := by
  -- The result is that of the last attempt, whichever that is.
  have law := e.carryOut_retries step call pack scene
  cases known : e.settings.timeouts.stepTimeout? step.timeout with
  | none =>
      rw [known] at law
      rw [law.2] at good
      cases good
  | some limit =>
      rw [known] at law
      obtain ⟨bound, n, retries⟩ := law
      have last : 1 ≤ n := retries.least.1.1
      refine ⟨e.attemptNumber call pack limit scene n, ?_, ?_⟩
      · rw [retries.made]
        exact List.mem_map_of_mem (List.mem_range'_1.mpr ⟨last, by omega⟩)
      · cases outcome : ((e.attemptNumber call pack limit scene n).result e pack).outcome with
        | ok outputs => exact ⟨outputs, rfl⟩
        | error error =>
            rw [(retries.reports.bad error outcome).1] at good
            cases good

theorem executeStep_success (step : Step) :
    (e.executeStep step pack scene).1.success = (e.carryOutStep step pack scene).1.success := by
  simp only [executeStep]
  split
  · rfl
  · exact e.gather_success step _ _

/-- A step of a single action that succeeds has resolved its target. -/
theorem resolves_of_executeStep {step : Step} {text : String} (plain : step.kind ≠ .semantic)
    (given : step.target = some text) (good : (e.executeStep step pack scene).1.success = true) :
    ∃ x ∈ e.attemptsOfStep step pack scene, x.call = step.call ∧ x.Resolves e pack text := by
  have own : e.attemptsOfStep step pack scene = e.attemptsOf step step.call pack scene ∧
      (e.carryOutStep step pack scene).1.success = (e.carryOut step step.call pack scene).1.success := by
    simp only [attemptsOfStep, carryOutStep]
    cases kind : step.kind with
    | semantic => exact absurd kind plain
    | atomic | plugin _ => exact ⟨rfl, rfl⟩
  rw [executeStep_success, own.2] at good
  obtain ⟨x, made, outputs, outcome⟩ := attempt_of_carryOut good
  have same : x.call = step.call := e.attemptsOf_call made
  exact ⟨x, own.1 ▸ made, same, Attempt.resolves_of_outcome outcome (same ▸ given)⟩

/-- With another target, a step carries out its actions as before and reports them under its own label. -/
theorem carryOut_retarget (step : Step) (target : Option String) (call : ActionCall) :
    e.carryOut (step.retarget target) call pack scene =
      (e.carryOut step call pack scene).map (·.under (step.retarget target)) id := by
  simp only [carryOut, show (step.retarget target).timeout = step.timeout from rfl]
  cases e.settings.timeouts.stepTimeout? step.timeout with
  | none => rfl
  | some limit => exact attemptFrom_under (fun _ _ => rfl) step _ pack limit _ 1 scene

theorem attemptsOfAll_retarget (step : Step) (target : Option String) (composite : Params)
    (actions : List ExpandedStep) (scene : Scene β μ) :
    e.attemptsOfAll (step.retarget target) pack composite actions scene =
      e.attemptsOfAll step pack composite actions scene := by
  induction actions generalizing scene with
  | nil => rfl
  | cons child rest ih =>
      simp only [attemptsOfAll, carryOut_retarget, ih]
      rfl

/-- The target of a composite step plays no part in its attempts. -/
theorem attemptsOfStep_retarget {step : Step} (composite : step.kind = .semantic)
    (target : Option String) :
    e.attemptsOfStep (step.retarget target) pack scene = e.attemptsOfStep step pack scene := by
  simp only [attemptsOfStep, show (step.retarget target).kind = .semantic from composite, composite,
    attemptsOfAll_retarget]
  rfl

end Engine

/-- What the target of a step does. A step of a single action fails, or resolves its target, and that is
counted. A composite step makes the attempts that it makes with any other target, or with none. -/
structure Turn.HeedsTarget (e : Engine β μ) (pack : Option String) (turn : Turn β μ) (text : String) :
    Prop where
  plain : turn.step.kind ≠ .semantic → turn.result.success = false ∨
    (∃ x ∈ turn.attempts e pack, x.call = turn.step.call ∧ x.Resolves e pack text) ∧
      turn.before.context.metrics.attempts < turn.after.context.metrics.attempts
  composite : turn.step.kind = .semantic → ∀ target,
    turn.attempts e pack = e.attemptsOfStep (turn.step.retarget target) pack turn.scene

theorem Turn.Taken.heedsTarget {e : Engine β μ} {pack : Option String} {turn : Turn β μ} {text : String}
    (h : turn.Taken e pack) (executed : turn.result.isSkipped = false)
    (given : turn.step.target = some text) : turn.HeedsTarget e pack text := by
  have made : turn.attempts e pack = e.attemptsOfStep turn.step pack turn.scene := by
    rw [Turn.attempts, executed]
    rfl
  refine ⟨fun plain => ?_, fun composite target => ?_⟩
  · cases good : turn.result.success with
    | false => exact .inl rfl
    | true =>
        have run : e.executeStep turn.step pack turn.scene = (turn.result, turn.after) := by
          rcases h with held | passed
          · exact Turn.run_of_carriedOut held
          · rw [passed.skipped] at executed
            cases executed
        obtain ⟨x, among, own, resolves⟩ :=
          Engine.resolves_of_executeStep plain given ((congrArg (·.1.success) run).trans good)
        rw [← made] at among
        refine .inr ⟨⟨x, among, own, resolves⟩, ?_⟩
        -- The counts grow by one for each attempt that resolves a target, and this one does.
        have counted : 0 < (turn.attempts e pack).countP (·.seeks e pack) :=
          List.countP_pos_iff.mpr ⟨x, among, resolves.seeks⟩
        rw [h.grows.attempts]
        omega
  · rw [made, Engine.attemptsOfStep_retarget composite]

namespace Engine

/-- Every step of a run that is carried out and has a target fails or has resolved it, unless it is a
composite step, to whose attempts the target makes no difference. -/
theorem run_heedsTarget {e : Engine β μ} {w : Workflow} {r : WorkflowResult} {world world' : World β}
    {memory memory' : μ} (run : e.run w world memory = (.ok r, world', memory')) :
    ∃ record : Record β μ, record.TellsRun e w r world memory world' memory' ∧
      ∀ turn ∈ record.turns e, turn.result.isSkipped = false →
        ∀ text, turn.step.target = some text → turn.HeedsTarget e w.locatorPack text := by
  obtain ⟨context, s', record, prepared, -, tells, hw, hm⟩ := run_tells run
  refine ⟨record, ⟨context, s', prepared, tells, hw, hm⟩, fun turn mem executed text given => ?_⟩
  exact (tells.each_turn turn mem).heedsTarget executed given

/-- The click succeeds, so that it has resolved the target that its variable names. -/
theorem run_clicking_heedsTarget : ∃ r world' memory' record,
    pointing.run .clicking Scene.saving.world () = (.ok r, world', memory') ∧
      Record.TellsRun pointing .clicking r Scene.saving.world () world' memory' record ∧
      ∃ turn ∈ record.turns pointing, turn.result.isSkipped = false ∧ turn.result.success = true ∧
        turn.step.target = some "$name" ∧ turn.HeedsTarget pointing (some "app") "$name" := by
  have prepared : pointing.prepare .clicking = .ok (Context.empty.set "name" (.str "save")) := rfl
  obtain ⟨r, world', memory', -, run, -⟩ := run_of_prepare prepared Scene.saving.world ()
  have opening : (pointing.run .clicking Scene.saving.world ()).1.toOption.map
      WorkflowResult.opening = some (some (false, true)) := rfl
  rw [run] at opening
  obtain ⟨record, tells, heeds⟩ := run_heedsTarget run
  refine ⟨r, world', memory', record, run, tells, ?_⟩
  obtain ⟨context, last, -, told, -⟩ := tells
  obtain ⟨turn, mem, step, executed, good⟩ :=
    told.opening_turn rfl rfl rfl (Option.some.inj opening)
  have given : turn.step.target = some "$name" := congrArg Step.target step
  exact ⟨turn, mem, executed, good, given, heeds turn mem executed _ given⟩

end Engine

/-- An application whose only action compares two numbers. -/
def DeclaredAdapter.greeting : DeclaredAdapter :=
  ⟨"app", none, [], [("greet", ⟨[], [⟨"assert.equals", none,
    [("actual", .int 1), ("expected", .int 1)], none⟩]⟩)]⟩

def Installed.greeting : Installed :=
  ⟨Registry.builtin.sealed, ⟨Registry.builtin.sealed, DeclaredAdapter.greeting.adapter.semantic⟩,
    [DeclaredAdapter.greeting.locatorPack]⟩

namespace Engine

def greeting : Engine Rehearsal Unit := .ofInstalled .greeting noPlugin Rehearsal.browser .empty

def greets : String :=
  "workflow: w\nphase: one\ndo greet target=save\nend phase\nend workflow"

def greets.step : Step :=
  ⟨.semantic, "greet", [], some "save", none, none, none, false, [], ⟨"page.flow", 3⟩⟩

theorem compileAll_greets : ∃ w,
    (⟨greeting.registry, none, false⟩ : Compiler).compileAll greets "page.flow" = .ok [w] ∧
      greeting.prepare w = .ok .empty ∧ w.locatorPack = none ∧ w.setup = [] ∧
      w.phases = [⟨"one", none, none, [greets.step], ⟨"page.flow", 2⟩⟩] ∧
      (greeting.run w Scene.blank.world ()).1.toOption.map WorkflowResult.opening =
        some (some (false, true)) := by
  have one : ((⟨greeting.registry, none, false⟩ : Compiler).compileAll greets
      "page.flow").toOption.map (List.map fun w => (w.locatorPack, w.vars, w.setup, w.phases)) =
        some [(none, [], [], [⟨"one", none, none, [greets.step], ⟨"page.flow", 2⟩⟩])] := rfl
  obtain ⟨w, compiled, same⟩ := Except.ok_of_toOption_singleton one
  simp only [Prod.mk.injEq] at same
  obtain ⟨pack, vars, setup, phases⟩ := same
  refine ⟨w, compiled, ?_⟩
  cases w
  subst pack vars setup phases
  exact ⟨rfl, rfl, rfl, rfl, rfl⟩

/-- A composite step is compiled with a target. It succeeds, and no target is looked for. -/
theorem run_greets_unheeded : install .builtin [DeclaredAdapter.greeting.adapter] = .ok .greeting ∧
    ∃ w r world' memory' record,
      (⟨greeting.registry, none, false⟩ : Compiler).compileAll greets "page.flow" = .ok [w] ∧
      greeting.run w Scene.blank.world () = (.ok r, world', memory') ∧
      Record.TellsRun greeting w r Scene.blank.world () world' memory' record ∧
      ∃ turn ∈ record.turns greeting, turn.result.isSkipped = false ∧
        turn.step.target = some "save" ∧ turn.result.success = true ∧
        ∀ x ∈ turn.attempts greeting w.locatorPack, x.seeks greeting w.locatorPack = false := by
  obtain ⟨w, compiled, prepared, pack, setup, phases, opening⟩ := compileAll_greets
  obtain ⟨r, world', memory', record, run, tells, -⟩ :=
    run_of_prepare prepared Scene.blank.world ()
  rw [run] at opening
  refine ⟨rfl, w, r, world', memory', record, compiled, run, tells, ?_⟩
  obtain ⟨context, last, -, told, -⟩ := tells
  obtain ⟨turn, mem, step, executed, good⟩ :=
    told.opening_turn setup phases rfl (Option.some.inj opening)
  refine ⟨turn, mem, executed, congrArg Step.target step, good, fun x _ => ?_⟩
  rw [pack]
  exact Attempt.not_seeks_of_no_pack greeting x

end Engine
end Journey
