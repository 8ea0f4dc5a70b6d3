import Journey.Node.Json
import Journey.Node.Yaml
import Journey.Proofs.Loading
import Journey.Proofs.Run.Invocation
import Journey.Proofs.Run.Naming
import Journey.Rehearsal.Server
import Journey.Storage.Disk

/-!
What a validation that succeeds promises: a workflow that it has seen does not go wrong on names when it
is run. The names of actions and times are looked up by the compiler, those of packs and semantic actions
by the validation, and the engine finds them again because it is made from the same tables. What a
semantic action expands to is looked up when the step runs, and only then.
-/

namespace Journey

variable {β μ ρ ς : Type}

namespace Resolver

theorem hasPack_addPack (r : Resolver) (pack : LocatorPack) (id : String) :
    (r.addPack pack).hasPack id = (pack.id == id || r.hasPack id) := by
  have same : (pack.id == id) = decide (id = pack.id) := by
    rw [Bool.eq_iff_iff, beq_iff_eq, decide_eq_true_iff, eq_comm]
  simp only [hasPack, addPack, PackShelf.add, same]
  split <;> exact Dict.contains_insert _ _ _ _

theorem hasPack_foldl (packs : List LocatorPack) (r : Resolver) (id : String) :
    (packs.foldl addPack r).hasPack id = (r.hasPack id || packs.any fun pack => pack.id == id) := by
  induction packs generalizing r with
  | nil => simp
  | cons pack rest ih =>
      rw [List.foldl_cons, ih, hasPack_addPack, List.any_cons, Bool.or_assoc, Bool.or_left_comm]

end Resolver

/-- The timeout of the step is one of those that it is compiled against. -/
def Step.Timed (profiles : Option (List String)) (s : Step) : Prop :=
  ∀ profile ∈ s.timeout, StepDraft.knownProfile profiles profile = true

namespace Compiler

theorem compileAll_timed {c : Compiler} {text file : String} {ws : List Workflow}
    (h : c.compileAll text file = .ok ws) :
    ∀ w ∈ ws, ∀ s ∈ w.steps, s.Timed c.profiles := by
  refine steps_of_compileAll (fun compiled => ?_) h
  obtain ⟨d, compiles⟩ := compiles_of_compileStep compiled
  rw [Step.Timed, compiles.timeout]
  exact StepDraft.knownProfile_of_foldlM compiles.collected

end Compiler

namespace Workflow

/-- The pack and the semantic actions of the workflow are installed. -/
structure Fits (installed : Installed) (w : Workflow) : Prop where
  pack : ∀ pack ∈ w.locatorPack, (installed.packs.any fun p => p.id == pack) = true
  actions : ∀ s ∈ w.steps, s.kind = .semantic → installed.expander.has s.keyword = true

theorem fits_of_findings {w : Workflow} {installed : Installed}
    (h : ∀ finding ∈ w.findings installed, finding.isProblem = false) : w.Fits installed := by
  have known (clean : ∀ finding ∈ w.actionFindings installed.expander, finding.isProblem = false) :
      ∀ s ∈ w.steps, s.kind = .semantic → installed.expander.has s.keyword = true := by
    intro s mem composite
    by_contra unknown
    have asked : (s.isSemantic && !installed.expander.has s.keyword) = true := by
      rw [Step.isSemantic, composite, Bool.eq_false_iff.mpr unknown]
      rfl
    have problem := clean (.unknownAction w.name s.keyword s.source) (List.mem_append_left _
      (List.mem_map.mpr ⟨s, List.mem_filter.mpr ⟨mem, asked⟩, rfl⟩))
    cases problem
  simp only [findings] at h
  split at h
  case h_1 pack named =>
    split at h
    case isTrue loaded =>
      refine ⟨fun other same => ?_, known h⟩
      rw [named] at same
      exact Option.some.inj same ▸ loaded
    case isFalse =>
      have problem := h _ List.mem_cons_self
      cases problem
  case h_2 none =>
    refine ⟨fun pack named => ?_, known h⟩
    rw [none] at named
    cases named

end Workflow

namespace Engine

/-- The engine that is built from a configuration: from what it installs and from its settings. -/
def built (settings : Settings) (installed : Installed) (plugins : Handler → Plugin μ)
    (browser : Browser β) (template : Template) (collector : Option (Collector μ)) : Engine β μ :=
  { (ofInstalled installed plugins browser template).withSettings settings with collector }

/-- The command line runs workflows in an engine that is built so. -/
theorem engineFor_built {m : Type → Type} (s : Surroundings m ς) (settings : Settings)
    (installed : Installed) (evidence : Bool) :
    Command.engineFor s settings installed evidence =
      built settings installed noPlugin (Bridge.browser s.json s.launcher.server) ⟨[], s.environment⟩
        (if evidence then some screenshotCollector else none) := rfl

section Built

variable {settings : Settings} {installed : Installed} {plugins : Handler → Plugin μ}
  {browser : Browser β} {template : Template} {collector : Option (Collector μ)}

theorem hasPack_built (id : String) :
    (built settings installed plugins browser template collector).resolver.hasPack id =
      installed.packs.any fun pack => pack.id == id := by
  have held := Resolver.hasPack_foldl installed.packs
    (.empty Settings.default.timeouts.resolverPolicy) id
  exact held.trans (Bool.false_or _)

theorem isNaming_built {adapters : List DeclaredAdapter} (declares : installed.Declares adapters) :
    (built settings installed plugins browser template collector).IsNaming where
  native := by
    intro keyword spec found
    have builtin : Registry.builtin.sealed.find? keyword = some spec := declares.registry ▸ found
    exact ActionSpec.builtin_primitive spec (Registry.builtin_find builtin)
  checks := declares.checks

/-- The engine knows what a step names that was compiled against the same registry and the same times
and whose semantic action is installed. -/
theorem knows_built {s : Step} (timed : s.Timed (some (Dict.keys settings.timeouts.profiles)))
    (admitted : s.Admitted installed.registry)
    (composite : s.kind = .semantic → installed.expander.has s.keyword = true) :
    (built settings installed plugins browser template collector).Knows s where
  time := by
    change (settings.timeouts.stepTimeout? s.timeout).isSome = true
    cases given : s.timeout with
    | none => rfl
    | some profile =>
        have known := timed profile given
        exact Dict.contains_of_mem_keys (List.contains_iff_mem.mp known)
  action := by
    intro written
    obtain ⟨spec, found, -⟩ := admitted written
    exact Option.isSome_iff_exists.mpr ⟨spec, found⟩
  semantic := composite

end Built

/-- The run of the workflow does not go wrong on names. It finds its pack, and none of its steps fails
for an action, a time or a semantic action that is not known, but for one whose semantic action is declared
with an action that is not registered; and then it fails for that action. -/
structure GoesRight (e : Engine β μ) (adapters : List DeclaredAdapter) (w : Workflow)
    (world : World β) (memory : μ) : Prop where
  pack : ∀ name pack available,
    (e.run w world memory).1 ≠ .error (.packNotLoaded name pack available)
  children : ∀ r, (e.run w world memory).1 = .ok r → ∀ x ∈ r.results, ∀ child ∈ x.children,
    child.WellNamed
  steps : ∀ r, (e.run w world memory).1 = .ok r → ∀ x ∈ r.results, x.WellNamed ∨
    ∃ missing, x.error = some (.expansion (.unknownPrimitive x.keyword missing)) ∧
      e.registry.has missing = false ∧ ∃ d ∈ adapters, d.Uses x.keyword missing

theorem run_ne_packNotLoaded {e : Engine β μ} {w : Workflow}
    (loaded : ∀ pack, w.locatorPack = some pack → e.resolver.hasPack pack = true) (world : World β)
    (memory : μ) (name pack : String) (available : List String) :
    (e.run w world memory).1 ≠ .error (.packNotLoaded name pack available) := by
  rw [run, prepare_of_loaded loaded]
  intro failed
  cases seeded : e.seed w.vars .empty with
  | ok context =>
      rw [seeded] at failed
      cases failed
  | error error =>
      rw [seeded] at failed
      cases failed

theorem built_goesRight {settings : Settings} {installed : Installed} {adapters : List DeclaredAdapter}
    (declares : installed.Declares adapters) {w : Workflow} (fits : w.Fits installed)
    (timed : ∀ s ∈ w.steps, s.Timed (some (Dict.keys settings.timeouts.profiles)))
    (admitted : ∀ s ∈ w.steps, s.Admitted installed.registry) (plugins : Handler → Plugin μ)
    (browser : Browser β) (template : Template) (collector : Option (Collector μ)) (world : World β) (memory : μ) :
    (built settings installed plugins browser template collector).GoesRight adapters w world memory := by
  have naming : (built settings installed plugins browser template collector).IsNaming :=
    isNaming_built declares
  have knows (s : Step) (mem : s ∈ w.steps) :
      (built settings installed plugins browser template collector).Knows s :=
    knows_built (timed s mem) (admitted s mem) (fits.actions s mem)
  have named {r : WorkflowResult}
      (ran : ((built settings installed plugins browser template collector).run w world memory).1 = .ok r) :=
    run_names naming knows (Prod.ext ran rfl)
  refine ⟨run_ne_packNotLoaded (fun pack held => ?_) world memory, fun r ran x mem => ?_,
    fun r ran x mem => ?_⟩
  · exact (hasPack_built pack).trans (fits.pack pack held)
  · obtain ⟨s, -, -, names⟩ := named ran x mem
    exact names.children
  · obtain ⟨s, own, belongs, names⟩ := named ran x mem
    rcases names.whole with right | ⟨composite, params, context, error, failed, same⟩
    · exact .inl right
    · rw [belongs.keyword, same]
      rcases declares.expand_error (fits.actions s own composite) failed with
        ⟨param, rfl⟩ | ⟨missing, rfl, unknown, uses⟩
      · -- The expansion lacks a parameter, which is not known by a table.
        refine .inl fun error given => ?_
        obtain rfl := Option.some.inj (same.symm.trans given)
        rfl
      · exact .inr ⟨missing, rfl, unknown, uses⟩

end Engine

namespace Command

theorem compiled_of_compile {fs : Storage (StateM ρ)} {location : String} {settings : Settings}
    {registry : Registry} {d d' : ρ} {ws : List Workflow}
    (h : Gives (compile fs location settings registry) d ws d') :
    ∀ w ∈ ws, ∃ text file ws', (compilerFor settings registry).compileAll text file = .ok ws' ∧
      w ∈ ws' := by
  obtain ⟨_, m, -, h⟩ := Gives.of_bind h
  exact Loader.compiled_of_load h.of_loading

theorem clean_of_validated {findings : List Finding} (h : (validated findings).code = 0) :
    ∀ finding ∈ findings, finding.isProblem = false := by
  intro finding mem
  cases problem : finding.isProblem with
  | false => rfl
  | true =>
      have any : findings.any Finding.isProblem = true := List.any_eq_true.mpr ⟨finding, mem, problem⟩
      rw [validated, any] at h
      cases h

/-- A validation succeeds only after everything has been prepared and compiled, and only if all
workflows fit what is installed. -/
theorem gives_of_validate {s : Surroundings (StateM ρ) ς} {location : String} {config : Option String}
    {d : ρ} (succeeds : ((execute s (.validate location config)).run d).1.code = 0) :
    ∃ settings installed ws d' d'', Gives (prepare s.files s.yaml config) d (settings, installed) d' ∧
      Gives (compile s.files location settings installed.registry) d' ws d'' ∧
      ∀ w ∈ ws, w.Fits installed := by
  simp only [execute, StateT.run_bind] at succeeds
  rcases ran : (runValidate s location config).run.run d with ⟨error | outcome, last⟩
  · rw [ran] at succeeds
    cases succeeds
  · rw [ran] at succeeds
    have good : outcome.code = 0 := succeeds
    obtain ⟨⟨settings, installed⟩, m, prepared, h⟩ := Gives.of_bind (show Gives _ d outcome last from ran)
    obtain ⟨ws, m', compiled, h⟩ := Gives.of_bind h
    refine ⟨settings, installed, ws, m, m', prepared, compiled, fun w mem => ?_⟩
    split at h
    case isTrue none =>
      rw [List.isEmpty_iff.mp none] at mem
      cases mem
    case isFalse =>
      obtain ⟨rfl, -⟩ := Gives.of_pure h
      refine Workflow.fits_of_findings fun finding among => ?_
      exact clean_of_validated good finding (List.mem_flatMap.mpr ⟨w, mem, among⟩)

/-- Validated workflows do not go wrong on names: whatever the browser does, a workflow that has been
compiled in a validation that succeeds goes right in an engine that is built from the configuration that
it was validated with. -/
theorem validate_sound (s : Surroundings (StateM ρ) ς) (location : String) (config : Option String)
    (d : ρ) (succeeds : ((execute s (.validate location config)).run d).1.code = 0) :
    ∃ settings adapters installed ws d' d'',
      Prepares s.files s.yaml config d settings adapters installed d' ∧
      Gives (compile s.files location settings installed.registry) d' ws d'' ∧
      ∀ w ∈ ws, ∀ {β μ : Type} (plugins : Handler → Plugin μ) (browser : Browser β)
        (template : Template) (collector : Option (Collector μ)) (world : World β) (memory : μ),
        (Engine.built settings installed plugins browser template collector).GoesRight adapters w
          world memory := by
  obtain ⟨settings, installed, ws, d', d'', prepared, compiled, fits⟩ := gives_of_validate succeeds
  obtain ⟨adapters, prepares⟩ := prepares_of_prepare prepared
  refine ⟨settings, adapters, installed, ws, d', d'', prepares, compiled, ?_⟩
  intro w mem β μ plugins browser template collector world memory
  obtain ⟨text, file, ws', made, among⟩ := compiled_of_compile compiled w mem
  exact Engine.built_goesRight prepares.declares (fits w mem) (Compiler.compileAll_timed made w among)
    (Compiler.compileAll_admitted made w among) plugins browser template collector world memory

end Command

/-- A folder with a configuration, the one adapter that it names, and a workflow. The adapter has an
action that stands for another one. -/
def Disk.greeting (keyword : String) : Disk :=
  ((Disk.empty.addFile ["config"] (some "adapters: [app]")).addFile ["app"]
    (some s!"name: app\nactions:\n greet:\n  steps:\n  - keyword: {keyword}")).addFile ["page"]
    (some "workflow: w\nphase: one\ndo greet\nend phase\nend workflow")

/-- A folder alone: there is no browser to launch. -/
def Surroundings.offline : Surroundings (StateM Disk) ServerScript where
  files := Disk.storage
  yaml := Node.Yaml.parse?
  json := Node.Json.parse?
  launcher := ⟨fun _ => .error .disconnected, ServerScript.server⟩
  environment := []
  runName := "run"

namespace Command

/-- The errors of all steps of each workflow, when it is run on an empty page. -/
def rehearse (s : Surroundings (StateM ρ) ς) (location : String) (config : Option String) :
    ExceptT CommandError (StateM ρ) (List (Option (List (Option StepError)))) := do
  let (settings, installed) ← prepare s.files s.yaml config
  let ws ← compile s.files location settings installed.registry
  return ws.map fun w =>
    ((Engine.built settings installed Engine.noPlugin Rehearsal.browser .empty none).run w
      Scene.blank.world ()).1.toOption.map fun r => r.results.map (·.error)

theorem validate_greeting_sound :
    ((execute .offline (.validate "page" (some "config"))).run
      (.greeting "browser.screenshot")).1.code = 0 ∧
    ∃ settings adapters installed ws d' d'',
      Prepares Disk.storage Node.Yaml.parse? (some "config") (.greeting "browser.screenshot")
        settings adapters installed d' ∧
      Gives (compile Disk.storage "page" settings installed.registry) d' ws d'' ∧
      ws.length = 1 ∧ ∀ w ∈ ws,
        (Engine.built settings installed Engine.noPlugin Rehearsal.browser .empty none).GoesRight
          adapters w Scene.blank.world () ∧
        ∀ world, (engineFor .offline settings installed true).GoesRight adapters w world () := by
  have succeeds : ((execute .offline (.validate "page" (some "config"))).run
      (.greeting "browser.screenshot")).1.code = 0 := by decide +kernel
  have errors : ((rehearse .offline "page" (some "config")).run.run
      (.greeting "browser.screenshot")).1 = .ok [some [none]] := by decide +kernel
  obtain ⟨settings, adapters, installed, ws, d', d'', prepares, compiled, right⟩ :=
    validate_sound .offline "page" (some "config") (.greeting "browser.screenshot") succeeds
  refine ⟨succeeds, settings, adapters, installed, ws, d', d'', prepares, compiled, ?_,
    fun w mem => ⟨right w mem _ _ _ _ _ _, fun world => ?_⟩⟩
  · have rehearsed : Gives (rehearse .offline "page" (some "config")) _ _ d'' :=
      prepares.prepared.bind (compiled.bind rfl)
    rw [rehearsed] at errors
    have one := congrArg List.length (Except.ok.inj errors)
    rwa [List.length_map] at one
  · rw [Engine.engineFor_built]
    exact right w mem _ _ _ _ _ _

/-- An adapter whose action stands for one that nobody has registered goes through a validation. The step
that names the action fails when it is run. -/
theorem validate_tapping_misnamed :
    ((execute .offline (.validate "page" (some "config"))).run (.greeting "element.tap")).1.code = 0 ∧
    ∃ settings installed w d' d'' r,
      Gives (prepare Disk.storage Node.Yaml.parse? (some "config")) (.greeting "element.tap")
        (settings, installed) d' ∧
      Gives (compile Disk.storage "page" settings installed.registry) d' [w] d'' ∧
      ((Engine.built settings installed Engine.noPlugin Rehearsal.browser .empty none).run w
        Scene.blank.world ()).1 = .ok r ∧
      r.results.map (·.error) = [some (.expansion (.unknownPrimitive "greet" "element.tap"))] := by
  have succeeds : ((execute .offline (.validate "page" (some "config"))).run
      (.greeting "element.tap")).1.code = 0 := by decide +kernel
  have errors : ((rehearse .offline "page" (some "config")).run.run (.greeting "element.tap")).1 =
      .ok [some [some (.expansion (.unknownPrimitive "greet" "element.tap"))]] := by decide +kernel
  obtain ⟨settings, installed, ws, d', d'', prepared, compiled, -⟩ := gives_of_validate succeeds
  have rehearsed : Gives (rehearse .offline "page" (some "config")) _ _ d'' :=
    prepared.bind (compiled.bind rfl)
  rw [rehearsed] at errors
  obtain ⟨w, rfl, ran⟩ := List.map_eq_singleton_iff.mp (Except.ok.inj errors)
  obtain ⟨r, given, shown⟩ := Option.map_eq_some_iff.mp ran
  exact ⟨succeeds, settings, installed, w, d', d'', r, prepared, compiled,
    Except.ok_of_toOption given, shown⟩

end Command
end Journey
