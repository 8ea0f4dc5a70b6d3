import Journey.Proofs.Compile.Purity
import Journey.Proofs.Run.Trail

/-!
What actions are handed over to with. A written step is checked against the spec of its keyword when it
is compiled; an action that a composite step expands to is not, beyond its keyword. Resolving
placeholders neither adds nor drops a parameter or a target, so that an action gets what its spec
allows exactly if its call is one that such a check would admit.
-/

namespace Journey

variable {β μ : Type}

/-- The call has the parameters that the spec requires, and a target as the spec uses it. -/
structure ActionSpec.Admits (spec : ActionSpec) (call : ActionCall) : Prop where
  params : ∀ name ∈ spec.requiredParams, Dict.contains call.params name = true
  untargeted : spec.target = .none → call.target = none
  targeted : spec.target = .required → call.target.isSome = true

namespace Scope

theorem contains_resolveFields (s : Scope) {params resolved : List (String × Value)}
    (h : s.resolveFields params = .ok resolved) (name : String) :
    Dict.contains resolved name = Dict.contains params name := by
  induction params generalizing resolved with
  | nil =>
      obtain rfl := Except.ok.inj h
      rfl
  | cons entry rest ih =>
      obtain ⟨k, v⟩ := entry
      simp only [resolveFields] at h
      split at h
      · cases h
      · obtain ⟨others, more, rfl⟩ := Except.ok_of_map h
        have later := ih more
        simp only [Dict.contains, Dict.find?] at later ⊢
        split
        · rfl
        · exact later

end Scope

namespace Engine

theorem resolveFields_of_resolveCall {e : Engine β μ} {call : ActionCall} {context : Context}
    {params : Params} {target : Option String} (h : e.resolveCall call context = .ok (params, target)) :
    Scope.resolveFields ⟨call.composite, context, e.template⟩ call.params = .ok params ∧
      target.isSome = call.target.isSome := by
  simp only [resolveCall] at h
  split at h
  case h_1 => cases h
  case h_2 resolved filled =>
    cases given : call.target with
    | none =>
        rw [given] at h
        obtain ⟨rfl, rfl⟩ := Prod.mk.inj (Except.ok.inj h)
        exact ⟨filled, rfl⟩
    | some text =>
        rw [given] at h
        obtain ⟨key, -, same⟩ := Except.ok_of_map h
        obtain ⟨rfl, rfl⟩ := Prod.mk.inj same
        exact ⟨filled, rfl⟩

/-- A call that is resolved has the parameters it was written with, and a target if it had one. -/
theorem resolveCall_shape {e : Engine β μ} {call : ActionCall} {context : Context} {params : Params}
    {target : Option String} (h : e.resolveCall call context = .ok (params, target)) :
    (∀ name, Dict.contains params name = Dict.contains call.params name) ∧
      target.isSome = call.target.isSome :=
  have resolved := resolveFields_of_resolveCall h
  ⟨Scope.contains_resolveFields _ resolved.1, resolved.2⟩

end Engine

namespace Attempt

variable {e : Engine β μ} {pack : Option String} {x : Attempt β μ} {spec : ActionSpec}
  {input : ActionInput}

/-- The action is handed over to with what its spec allows: every required parameter, no target and
no search for one where it takes none, and the element that was found where it requires one. -/
structure Allowed (e : Engine β μ) (pack : Option String) (x : Attempt β μ) (spec : ActionSpec)
    (input : ActionInput) : Prop where
  params : ∀ name ∈ spec.requiredParams, Dict.contains input.params name = true
  untargeted : spec.target = .none → x.seeks e pack = false ∧ input.target = none
  targeted : spec.target = .required → ∃ search resolved, x.search? e pack = some search ∧
    search.result = some (.ok resolved) ∧ input.target = some resolved.handle

/-- An action is handed over to without a target if it has none, and otherwise with what the search
for it leaves. -/
theorem invocation_inv (h : x.invocation? e pack = some (spec, input)) :
    ∃ params target, e.registry.find? x.call.keyword = some spec ∧
      e.resolveCall x.call x.before.context = .ok (params, target) ∧ input.params = params ∧
      (target = none ∧ input.target = none ∨
        target.isSome = true ∧ x.passes? e pack spec = some input.target) := by
  simp only [invocation?] at h
  split at h
  case h_2 => cases h
  case h_1 spec' params target found resolved =>
    obtain ⟨handle, passed, same⟩ := Option.map_eq_some_iff.mp h
    obtain ⟨rfl, rfl⟩ := Prod.mk.inj same
    refine ⟨params, target, found, resolved, rfl, ?_⟩
    cases target with
    | none => exact .inl ⟨rfl, (Option.some.inj passed).symm⟩
    | some key => exact .inr ⟨rfl, passed⟩

/-- An attempt that succeeds has handed its action over. -/
theorem invoked_of_outcome {outputs : Outputs} (h : (x.result e pack).outcome = .ok outputs) :
    ∃ spec input, x.invocation? e pack = some (spec, input) := by
  have ended := ending_of_outcome h
  obtain ⟨n, -, goes⟩ := x.ending_eq e pack
  cases invoked : x.invocation? e pack with
  | some handed => exact ⟨handed.1, handed.2, rfl⟩
  | none =>
      rw [invoked] at goes
      obtain ⟨result, ends, lost⟩ := goes
      rw [ends] at ended
      exact absurd ended (lost outputs)

theorem search_of_untargeted {params : Params}
    (resolved : e.resolveCall x.call x.before.context = .ok (params, none)) :
    x.search? e pack = none := by
  have nothing : x.sought? e pack = none := by
    simp only [sought?, resolved]
    cases e.registry.find? x.call.keyword <;> cases pack <;> rfl
  rw [search?, nothing]
  rfl

theorem passes_inv (h : x.passes? e pack spec = some input.target) :
    ∃ search, x.search? e pack = some search ∧ (spec.target = .required →
      ∃ resolved, search.result = some (.ok resolved) ∧ input.target = some resolved.handle) := by
  obtain ⟨search, found, passed⟩ := Option.bind_eq_some_iff.mp h
  refine ⟨search, found, fun required => ?_⟩
  cases result : search.result with
  | none =>
      rw [result] at passed
      cases passed
  | some outcome =>
      cases outcome with
      | ok resolved =>
          rw [result] at passed
          exact ⟨resolved, rfl, (Option.some.inj passed).symm⟩
      | error failure =>
          -- A failed search leaves something to pass on only where the target may be absent.
          simp [result, required] at passed

/-- What an action is handed over to with is what its spec allows exactly if its call is one that the
spec admits. -/
theorem allowed_iff (h : x.invocation? e pack = some (spec, input)) :
    x.Allowed e pack spec input ↔ spec.Admits x.call := by
  obtain ⟨params, target, -, resolved, rfl, handed⟩ := invocation_inv h
  obtain ⟨kept, given⟩ := Engine.resolveCall_shape resolved
  rcases handed with ⟨rfl, bare⟩ | ⟨some, passed⟩
  · have idle : x.search? e pack = none := search_of_untargeted resolved
    have absent : x.call.target = none := by simpa using given.symm
    constructor
    · intro allowed
      refine ⟨fun name due => kept name ▸ allowed.params name due, fun _ => absent, fun required => ?_⟩
      obtain ⟨search, -, found, -⟩ := allowed.targeted required
      rw [idle] at found
      cases found
    · intro admits
      refine ⟨fun name due => (kept name).trans (admits.params name due),
        fun _ => ⟨by rw [seeks, idle]; rfl, bare⟩, fun required => ?_⟩
      have present := admits.targeted required
      rw [absent] at present
      cases present
  · obtain ⟨search, found, due⟩ := passes_inv passed
    have present : x.call.target.isSome = true := given ▸ some
    constructor
    · intro allowed
      refine ⟨fun name due => kept name ▸ allowed.params name due, fun none => ?_, fun _ => present⟩
      have idle := (allowed.untargeted none).1
      rw [seeks, found] at idle
      cases idle
    · intro admits
      refine ⟨fun name due => (kept name).trans (admits.params name due), fun none => ?_,
        fun required => ?_⟩
      · rw [admits.untargeted none] at present
        cases present
      · obtain ⟨resolved, result, passed⟩ := due required
        exact ⟨search, resolved, found, result, passed⟩

end Attempt

/-- A written action has a spec, and is one that it admits. -/
def Step.Admitted (registry : Registry) (s : Step) : Prop :=
  s.kind ≠ .semantic → ∃ spec, registry.find? s.keyword = some spec ∧ spec.Admits s.call

namespace Compiler

theorem admits_of_checkSpec {keyword : String} {spec : ActionSpec} {d : StepDraft} {step : Step}
    (h : checkSpec keyword spec d = .ok ()) (params : step.params = d.params)
    (target : step.target = d.target) : spec.Admits step.call := by
  simp only [checkSpec] at h
  split at h
  case isTrue => cases h
  case isFalse present =>
    split at h
    case isTrue => cases h
    case isFalse absent =>
      split at h
      case h_1 => cases h
      case h_2 full =>
        refine ⟨fun name due => ?_, fun none => ?_, fun required => ?_⟩
        · simpa [Step.call, params] using List.find?_eq_none.mp full name due
        · simpa [Step.call, target, ActionSpec.acceptsTarget, none] using absent
        · simpa [Step.call, target, ActionSpec.requiresTarget, required, Option.isSome_iff_ne_none]
            using present

theorem find?_of_specFor {c : Compiler} {action : ActionLine} {spec : ActionSpec}
    (h : c.specFor action = .ok (some spec)) : c.registry.find? (fullKeyword action) = some spec := by
  have get (found : c.registry.get (fullKeyword action) = .ok spec) :
      c.registry.find? (fullKeyword action) = some spec := by
    simp only [Registry.get] at found
    split at found
    · rename_i known
      rw [known, Except.ok.inj found]
    · cases found
  simp only [specFor] at h
  split at h
  case h_1 => cases h
  case h_2 | h_3 =>
    split at h
    · rename_i known
      obtain rfl := Option.some.inj (Except.ok.inj h)
      exact get known
    · cases h

theorem admitted_of_compileStep {c : Compiler} {action : ActionLine} {source : SourceRef}
    {step : Step} (h : c.compileStep action source = .ok step) : step.Admitted c.registry := by
  obtain ⟨d, compiles⟩ := compiles_of_compileStep h
  obtain ⟨spec, found, kind, checked⟩ := compiles.spec
  intro plain
  rw [kind] at plain
  cases spec with
  | none => exact absurd rfl plain
  | some spec =>
      refine ⟨spec, ?_, admits_of_checkSpec checked compiles.params compiles.target⟩
      rw [compiles.keyword]
      exact find?_of_specFor found

/-- Every written action of what compiles is one that its spec admits. -/
theorem compileAll_admitted {c : Compiler} {text file : String} {ws : List Workflow}
    (h : c.compileAll text file = .ok ws) :
    ∀ w ∈ ws, ∀ s ∈ w.steps, s.Admitted c.registry :=
  steps_of_compileAll admitted_of_compileStep h

end Compiler

/-- What is handed over to an action in a turn: it is under the spec of its keyword, and what that
allows if the action is written. If the step expands to it, it is just if its call is admitted. -/
structure Turn.Invokes (e : Engine β μ) (pack : Option String) (turn : Turn β μ) (x : Attempt β μ)
    (spec : ActionSpec) (input : ActionInput) : Prop where
  known : e.registry.find? x.call.keyword = some spec
  written : turn.step.kind ≠ .semantic → x.call = turn.step.call ∧ x.Allowed e pack spec input
  expanded : turn.step.kind = .semantic → ∃ params actions,
    e.expansion? turn.step turn.scene.context = some (params, actions) ∧
      ∃ child ∈ actions, x.call = child.call params ∧
        (x.Allowed e pack spec input ↔ spec.Admits (child.call params))

namespace Engine

/-- Whenever an action of a run is handed over to, it is under the spec of its keyword. A written action
gets what that allows. An action that a composite step expands to does exactly if the expansion keeps
to what is asked of a written one. -/
theorem run_invokes {c : Compiler} {text file : String} {ws : List Workflow} {w : Workflow}
    {e : Engine β μ} {r : WorkflowResult} {world world' : World β} {memory memory' : μ}
    (compiled : c.compileAll text file = .ok ws) (among : w ∈ ws) (same : e.registry = c.registry)
    (run : e.run w world memory = (.ok r, world', memory')) :
    ∃ record : Record β μ, record.TellsRun e w r world memory world' memory' ∧
      ∀ turn ∈ record.turns e, ∀ x ∈ turn.attempts e w.locatorPack, ∀ spec input,
        x.invocation? e w.locatorPack = some (spec, input) →
          turn.Invokes e w.locatorPack x spec input := by
  obtain ⟨context, s', record, prepared, -, tells, hw, hm⟩ := run_tells run
  refine ⟨record, ⟨context, s', prepared, tells, hw, hm⟩, ?_⟩
  intro turn mem x made spec input invoked
  have declared : turn.step ∈ w.steps := by
    refine tells.step_mem turn.toEntry ?_
    rw [← Record.turns_entries e]
    exact List.mem_map_of_mem mem
  obtain ⟨-, -, found, -⟩ := Attempt.invocation_inv invoked
  have law := Attempt.allowed_iff invoked
  rcases e.attemptsOfStep_call (Turn.mem_attempts made) with ⟨plain, own⟩ | ⟨composite, params,
    actions, expanded, child, brought, own⟩
  · refine ⟨found, fun _ => ⟨own, ?_⟩, fun composite => absurd composite plain⟩
    obtain ⟨written, known, admits⟩ := Compiler.compileAll_admitted compiled w among _ declared plain
    rw [own] at found law
    rw [← same, show turn.step.keyword = turn.step.call.keyword from rfl, found] at known
    obtain rfl := Option.some.inj known
    exact law.mpr admits
  · refine ⟨found, fun plain => absurd composite plain, fun _ => ?_⟩
    exact ⟨params, actions, expanded, child, brought, own, own ▸ law⟩

end Engine

/-- An application whose only action points an assertion at a target that it does not take. -/
def DeclaredAdapter.pointing : DeclaredAdapter :=
  ⟨"app", none, [("save", ⟨some (.testId "save"), [], none⟩)], [("confirm", ⟨[], [⟨"assert.equals",
    some "save", [("actual", .int 1), ("expected", .int 1)], none⟩]⟩)]⟩

def Installed.pointing : Installed :=
  ⟨Registry.builtin.sealed, ⟨Registry.builtin.sealed, DeclaredAdapter.pointing.adapter.semantic⟩,
    [DeclaredAdapter.pointing.locatorPack]⟩

theorem install_pointing : install .builtin [DeclaredAdapter.pointing.adapter] = .ok .pointing := rfl

/-- A page that has the one element of that application. -/
def Scene.saving : Scene Rehearsal Unit :=
  ⟨.start ⟨"", [("query test_id=save", [⟨0, false, .ok (.str "h1")⟩])], 0⟩, .empty, ()⟩

namespace Engine

def pointing : Engine Rehearsal Unit := .ofInstalled .pointing noPlugin Rehearsal.browser .empty

def confirms : String :=
  "workflow: w\nlocators: app\nphase: one\ndo confirm\nend phase\nend workflow"

def confirms.step : Step :=
  ⟨.semantic, "confirm", [], none, none, none, none, false, [], ⟨"page.flow", 4⟩⟩

theorem compileAll_confirms : ∃ w,
    (⟨pointing.registry, none, false⟩ : Compiler).compileAll confirms "page.flow" = .ok [w] ∧
      pointing.prepare w = .ok .empty ∧ w.locatorPack = some "app" ∧ w.setup = [] ∧
      w.phases = [⟨"one", none, none, [confirms.step], ⟨"page.flow", 3⟩⟩] ∧
      (pointing.run w Scene.saving.world ()).1.toOption.map (fun r =>
        (r.phases.head?.bind fun p => p.steps.head?).map fun x => x.isSkipped) =
          some (some false) := by
  have one : ((⟨pointing.registry, none, false⟩ : Compiler).compileAll confirms
      "page.flow").toOption.map (List.map fun w => (w.locatorPack, w.vars, w.setup, w.phases)) =
        some [(some "app", [], [], [⟨"one", none, none, [confirms.step], ⟨"page.flow", 3⟩⟩])] := rfl
  obtain ⟨w, compiled, same⟩ := Except.ok_of_toOption_singleton one
  simp only [Prod.mk.injEq] at same
  obtain ⟨pack, vars, setup, phases⟩ := same
  refine ⟨w, compiled, ?_⟩
  cases w
  subst pack vars setup phases
  exact ⟨rfl, rfl, rfl, rfl, rfl⟩

theorem run_confirms_invokes : ∃ w r world' memory' record,
    (⟨pointing.registry, none, false⟩ : Compiler).compileAll confirms "page.flow" = .ok [w] ∧
      pointing.run w Scene.saving.world () = (.ok r, world', memory') ∧
      Record.TellsRun pointing w r Scene.saving.world () world' memory' record ∧
      ∀ turn ∈ record.turns pointing, ∀ x ∈ turn.attempts pointing w.locatorPack, ∀ spec input,
        x.invocation? pointing w.locatorPack = some (spec, input) →
          turn.Invokes pointing w.locatorPack x spec input := by
  obtain ⟨w, compiled, prepared, -⟩ := compileAll_confirms
  obtain ⟨r, world', memory', -, run, -⟩ := run_of_prepare prepared Scene.saving.world ()
  obtain ⟨record, tells, invokes⟩ := run_invokes compiled List.mem_cons_self rfl run
  exact ⟨w, r, world', memory', record, compiled, run, tells, invokes⟩

/-- An application that can be installed points an assertion, which takes no target, at one. It is
resolved and handed over. -/
theorem run_confirms_disallowed : install .builtin [DeclaredAdapter.pointing.adapter] = .ok .pointing ∧
    ∃ w r world' memory' record,
      (⟨pointing.registry, none, false⟩ : Compiler).compileAll confirms "page.flow" = .ok [w] ∧
      pointing.run w Scene.saving.world () = (.ok r, world', memory') ∧
      Record.TellsRun pointing w r Scene.saving.world () world' memory' record ∧
      ∃ turn ∈ record.turns pointing, ∃ x ∈ turn.attempts pointing w.locatorPack, ∃ spec input,
        x.invocation? pointing w.locatorPack = some (spec, input) ∧ spec.target = .none ∧
          x.seeks pointing w.locatorPack = true ∧ input.target = some "h1" := by
  obtain ⟨w, compiled, prepared, pack, setup, phases, executed⟩ := compileAll_confirms
  obtain ⟨r, world', memory', record, run, tells, -⟩ :=
    run_of_prepare prepared Scene.saving.world ()
  refine ⟨install_pointing, w, r, world', memory', record, compiled, run, tells, ?_⟩
  obtain ⟨context, last, prepared', told, -⟩ := tells
  obtain rfl : Context.empty = context := Except.ok.inj (prepared.symm.trans prepared')
  obtain ⟨cause, result, after, others, watched, shown⟩ := told.first_turn setup phases rfl
  refine ⟨_, List.mem_append_left _ (watched ▸ List.mem_cons_self), ?_⟩
  -- The step is carried out, in a scene that is known but for the root cause.
  rw [run] at executed
  have first : (r.phases.head?.bind fun p => p.steps.head?).map (fun x => x.isSkipped) =
      some false := Option.some.inj executed
  rw [shown] at first
  have carriedOut : result.isSkipped = false := Option.some.inj first
  simp only [Turn.attempts, carriedOut, Bool.false_eq_true, if_false, pack]
  exact ⟨_, List.mem_cons_self, _, _, rfl, rfl, rfl, rfl⟩

end Engine
end Journey
