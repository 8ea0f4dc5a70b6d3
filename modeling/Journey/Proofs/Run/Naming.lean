import Journey.Proofs.Adapter
import Journey.Proofs.Run.Place
import Journey.Proofs.Run.Turn

/-!
No step of a run fails over a name that its engine knows. An attempt at an action with an
implementation of its own fails for other reasons, and so does every action that a step expands to,
because the expander has looked it up. A step that cannot be expanded at all has the error of its
expansion. When an engine knows all the names of a workflow is a matter of validation.
-/

namespace Journey

variable {β μ : Type}

/-- If the action failed, then not over a name. -/
def ActionResult.WellNamed (r : ActionResult) : Prop := ∀ error ∈ r.error, error.isMisnamed = false

/-- The results of all steps of a run, in the order of its blocks. -/
def WorkflowResult.results (r : WorkflowResult) : List StepResult :=
  r.setup ++ r.phases.flatMap PhaseResult.steps ++ (r.recovery ++ r.teardown)

/-- The record shows every result of the run, and no other. -/
theorem Record.Tells.results {e : Engine β μ} {w : Workflow} {r : WorkflowResult} {s s' : Scene β μ}
    {c : Record β μ} (h : c.Tells e w r s s') : c.entries.map Entry.result = r.results := by
  have phases : (c.phases.flatMap Chapter.entries).map Entry.result =
      r.phases.flatMap PhaseResult.steps := by
    rw [← h.shown, List.map_flatMap, List.flatMap_map]
    exact List.flatMap_congr fun p owner => (h.phases p owner).tell.results
  have recovery : c.recovery.map Entry.result = r.recovery := by
    cases good : r.success with
    | true =>
        obtain ⟨none, idle⟩ := h.noRecovery good
        rw [none, idle]
        rfl
    | false => exact (h.recovery good).tell.results
  simp only [entries, WorkflowResult.results, List.map_append, h.setup.results, phases, recovery,
    h.teardown.tell.results]

namespace Engine

variable (e : Engine β μ)

/-- Every action that is registered has an implementation of its own, and expansions are checked
against the same registry. -/
structure IsNaming : Prop where
  native : ∀ keyword, e.IsNative keyword
  checks : e.expander.registry = e.registry

/-- The engine knows the time of the step, and its action or semantic action. -/
structure Knows (s : Step) : Prop where
  time : (e.settings.timeouts.stepTimeout? s.timeout).isSome = true
  action : s.kind ≠ .semantic → e.registry.has s.keyword = true
  semantic : s.kind = .semantic → e.expander.has s.keyword = true

variable {e}

theorem obeys_locate (spec : ActionSpec) (pack target : Option String) :
    (e.locate spec pack target).Obeys (fun _ => True) WellNamed := by
  cases target with
  | none => exact wellNamed_ok _
  | some key =>
      cases pack with
      | none => exact wellNamed_error rfl
      | some pack =>
          have search : ((e.resolver.resolve pack key).within Notes.metrics
              (Notes.setMetrics (μ := μ))).Obeys (fun _ => True) fun _ => True :=
            ((e.resolver.obeys_resolve pack key).within _ _).mono (fun _ _ => trivial) fun _ h => h
          refine search.bind fun shown _ => ?_
          cases shown with
          | ok resolved => exact wellNamed_ok _
          | error failure =>
              dsimp only
              split
              · exact wellNamed_ok _
              · exact wellNamed_error rfl

theorem obeys_dispatch {spec : ActionSpec} (native : spec.primitive?.isSome = true)
    (input : ActionInput) : (e.dispatch spec input).Obeys (fun _ => True) WellNamed := by
  obtain ⟨p, primitive⟩ := Option.isSome_iff_exists.mp native
  rw [dispatch, ActionSpec.kind_of_primitive primitive]
  exact ((p.obeys_perform input).within Notes.context Notes.setContext).mono (fun _ _ => trivial)
    fun _ h => h

/-- An attempt at a known action does not fail over a name, whatever the browser says. -/
theorem obeys_attempt {call : ActionCall} (native : e.IsNative call.keyword)
    (known : e.registry.has call.keyword = true) (pack : Option String) (limit : Nat) :
    (e.attempt call pack limit).Obeys (fun _ => True) WellNamed := by
  obtain ⟨spec, found⟩ := Option.isSome_iff_exists.mp known
  rw [attempt, show e.registry.find? call.keyword = some spec from found]
  intro n
  dsimp only
  split
  · exact wellNamed_error rfl
  · refine (obeys_locate spec pack _).bind fun located named => ?_
    cases located with
    | error error => exact wellNamed_error (named error rfl)
    | ok handle => exact obeys_dispatch (native spec found) _

theorem attemptReport_wellNamed (step : Step) (number : Nat) {r : AttemptResult}
    (h : WellNamed r.outcome) : (attemptReport step number r).WellNamed := by
  intro error failed
  simp only [attemptReport] at failed
  split at failed
  case h_1 => cases failed
  case h_2 error' outcome =>
    obtain rfl := Option.some.inj failed
    exact h _ outcome

section CarryOut

variable (call : ActionCall) (native : e.IsNative call.keyword)
  (known : e.registry.has call.keyword = true) (pack : Option String)

include native known

theorem runAttempt_wellNamed (limit : Nat) (scene : Scene β μ) :
    WellNamed (e.runAttempt call pack limit scene).1.outcome := by
  have given := (obeys_attempt native known pack limit).result e.browser
    (some (scene.world.now + limit)) scene.world ⟨scene.context, scene.memory, none, []⟩
  simp only [runAttempt]
  generalize Dialogue.run _ _ _ _ _ = ending at given ⊢
  cases result : ending.result with
  | none => exact wellNamed_error rfl
  | some outcome => exact given outcome result

theorem attemptFrom_wellNamed (step : Step) (limit spare number : Nat) (scene : Scene β μ) :
    (e.attemptFrom step call pack limit spare number scene).1.WellNamed := by
  induction spare generalizing number scene with
  | zero =>
      exact attemptReport_wellNamed step number
        (runAttempt_wellNamed call native known pack limit scene)
  | succ spare ih =>
      simp only [attemptFrom]
      split
      · exact ih _ _
      · exact attemptReport_wellNamed step number
          (runAttempt_wellNamed call native known pack limit scene)

theorem carryOut_wellNamed {step : Step}
    (time : (e.settings.timeouts.stepTimeout? step.timeout).isSome = true) (scene : Scene β μ) :
    (e.carryOut step call pack scene).1.WellNamed := by
  obtain ⟨limit, limited⟩ := Option.isSome_iff_exists.mp time
  simp only [carryOut, limited]
  exact attemptFrom_wellNamed call native known pack step limit _ 1 scene

end CarryOut

theorem passOver_wellNamed (step : Step) (total : Nat) (composite : Params) (reason : String)
    (index : Nat) (actions : List ExpandedStep) :
    ∀ r ∈ passOver step total composite reason index actions, r.WellNamed := by
  induction actions generalizing index with
  | nil => exact List.forall_mem_nil _
  | cons child rest ih => exact List.forall_mem_cons.mpr ⟨nofun, ih _⟩

theorem carryOutAll_wellNamed (naming : e.IsNaming) {step : Step}
    (time : (e.settings.timeouts.stepTimeout? step.timeout).isSome = true) (pack : Option String)
    (total : Nat) (composite : Params) {actions : List ExpandedStep}
    (known : ∀ child ∈ actions, e.registry.has child.keyword = true) (index : Nat)
    (scene : Scene β μ) :
    ∀ r ∈ (e.carryOutAll step pack total composite index actions scene).1, r.WellNamed := by
  induction actions generalizing index scene with
  | nil => exact List.forall_mem_nil _
  | cons child rest ih =>
      obtain ⟨here, later⟩ := List.forall_mem_cons.mp known
      have first := carryOut_wellNamed (child.call composite) (naming.native _) here pack
        time scene
      simp only [carryOutAll]
      split
      · exact List.forall_mem_cons.mpr ⟨first, ih later _ _⟩
      · exact List.forall_mem_cons.mpr ⟨first, passOver_wellNamed step total composite _ _ rest⟩

theorem compositeReport_wellNamed (step : Step) {children : List ActionResult}
    (h : ∀ r ∈ children, r.WellNamed) : (compositeReport step children).WellNamed := by
  intro error failed
  obtain ⟨r, first, own⟩ := Option.bind_eq_some_iff.mp failed
  exact h r (List.mem_filter.mp (List.mem_of_find?_eq_some first)).1 error own

/-- Nothing in the result of the step fails over a name, unless its action cannot be expanded at all. -/
structure Names (e : Engine β μ) (s : Step) (r : StepResult) : Prop where
  children : ∀ child ∈ r.children, child.WellNamed
  whole : r.WellNamed ∨ s.kind = .semantic ∧ ∃ params context error,
    e.expander.expand s.keyword params context = .error error ∧ r.error = some (.expansion error)

theorem Names.plain {s : Step} {r : ActionResult} (h : r.WellNamed) : e.Names s (.plain r) :=
  ⟨List.forall_mem_nil _, .inl h⟩

theorem carryOutComposite_names (naming : e.IsNaming) {step : Step} (composite : step.kind = .semantic)
    (time : (e.settings.timeouts.stepTimeout? step.timeout).isSome = true) (pack : Option String)
    (scene : Scene β μ) : e.Names step (e.carryOutComposite step pack scene).1 := by
  simp only [carryOutComposite]
  split
  case h_1 error _ =>
    refine .plain ?_
    rintro _ ⟨⟩
    rfl
  case h_2 params _ =>
    split
    case h_1 error failed =>
      exact ⟨List.forall_mem_nil _, .inr ⟨composite, params, scene.context, error, failed, rfl⟩⟩
    case h_2 actions expanded =>
      -- The expander has looked up every action in the registry that the attempts use.
      obtain ⟨-, -, -, known⟩ := Expander.expand_ok expanded
      rw [naming.checks] at known
      have children := carryOutAll_wellNamed naming time pack actions.length params known 1 scene
      exact ⟨children, .inl (compositeReport_wellNamed step children)⟩

theorem carryOutStep_names (naming : e.IsNaming) {step : Step} (knows : e.Knows step)
    (pack : Option String) (scene : Scene β μ) :
    e.Names step (e.carryOutStep step pack scene).1 := by
  have written (plain : step.kind ≠ .semantic) :=
    carryOut_wellNamed step.call (naming.native _) (knows.action plain) pack knows.time scene
  simp only [carryOutStep]
  cases kind : step.kind with
  | semantic => exact carryOutComposite_names naming kind knows.time pack scene
  | atomic | plugin _ => exact .plain (written (by simp [kind]))

theorem executeStep_names (naming : e.IsNaming) {step : Step} (knows : e.Knows step)
    (pack : Option String) (scene : Scene β μ) :
    e.Names step (e.executeStep step pack scene).1 := by
  have names := carryOutStep_names naming knows pack scene
  simp only [executeStep]
  split
  · exact names
  · simp only [gather]
    split
    · exact names
    · exact ⟨names.children, names.whole⟩

/-- If the engine knows what the steps of a workflow name, then no step of any run fails over a name,
but for those whose action cannot be expanded. -/
theorem run_names (naming : e.IsNaming) {w : Workflow} (knows : ∀ s ∈ w.steps, e.Knows s)
    {r : WorkflowResult} {world world' : World β} {memory memory' : μ}
    (run : e.run w world memory = (.ok r, world', memory')) :
    ∀ x ∈ r.results, ∃ s ∈ w.steps, x.BelongsTo s ∧ e.Names s x := by
  obtain ⟨context, s', c, -, -, tells, -, -⟩ := run_tells run
  rw [← tells.results]
  intro x shown
  obtain ⟨y, mem, rfl⟩ := List.mem_map.mp shown
  refine ⟨y.step, tells.step_mem y mem, ?_⟩
  rcases tells.each_entry y mem with ⟨block, policy, scene, -, ran⟩ | passed
  · have names := executeStep_names naming (knows _ (tells.step_mem y mem)) w.locatorPack
      (scene.atStep block y.index)
    rw [ran] at names
    exact ⟨(reports_of_run ran).toBelongsTo, names⟩
  · obtain ⟨reason, shown⟩ := passed.result
    rw [shown]
    exact ⟨StepResult.passedOver_belongsTo y.step reason, .plain nofun⟩

end Engine
end Journey
