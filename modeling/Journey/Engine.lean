import Journey.Adapter
import Journey.Result

/-!
The engine: everything a run is given, and one attempt of one action. An attempt looks up the spec
of its keyword, resolves parameters and target, locates the target, and hands over to a built-in
action or a plugin; it runs under the time of its step.
-/

namespace Journey

/-- What is behind the handler of a plugin action. It sees its target, parameters and the context, and keeps
its own memory. -/
abbrev Plugin (μ : Type) :=
  Option Handle → Params → Context → Dialogue μ (Except StepError Outputs)

abbrev Collector (μ : Type) :=
  SourceRef → String → Dialogue μ (Except BrowserError (List String))

def screenshotCollector {μ : Type} : Collector μ := fun _ _ =>
  .ask .screenshot fun
    | .ok shot => .done (.ok [shot])
    | .error e => .done (.error e)

structure Engine (β μ : Type) where
  registry : Registry
  expander : Expander
  resolver : Resolver
  browser : Browser β
  plugins : Handler → Plugin μ
  settings : Settings
  template : Template
  collector : Option (Collector μ)

namespace Engine

variable {β μ : Type}

def noPlugin : Handler → Plugin μ := fun _ _ _ _ => .done (.ok [])

def ofInstalled (installed : Installed) (plugins : Handler → Plugin μ) (browser : Browser β)
    (template : Template) : Engine β μ where
  registry := installed.registry
  expander := installed.expander
  resolver := installed.packs.foldl Resolver.addPack
    (.empty Settings.default.timeouts.resolverPolicy)
  browser := browser
  plugins := plugins
  settings := .default
  template := template
  collector := none

def withSettings (e : Engine β μ) (settings : Settings) : Engine β μ :=
  { e with
    resolver := { e.resolver with policy := settings.timeouts.resolverPolicy }
    template := settings.vars.foldl (fun t (k, v) => t.set k v) e.template
    settings := settings }

def withPack (e : Engine β μ) (pack : LocatorPack) : Engine β μ :=
  { e with resolver := e.resolver.addPack pack }

def poll (e : Engine β μ) : PollPolicy := e.settings.timeouts.pollPolicy .whole

end Engine

/-- One action to carry out: that of a step, or one that a composite step expanded to, which then
brings the parameters of that step along. -/
structure ActionCall where
  keyword : String
  target : Option String
  params : Params
  composite : Option Params

def ActionCall.label (c : ActionCall) : String := actionLabel c.keyword c.target

def Step.call (s : Step) : ActionCall := ⟨s.keyword, s.target, s.params, none⟩

def ExpandedStep.call (s : ExpandedStep) (composite : Params) : ActionCall :=
  ⟨s.keyword, s.target, s.params, some composite⟩

/-- What an attempt leaves behind even if it is cut off: the context, the memory of the plugins, and
how the target was found. -/
structure Notes (μ : Type) where
  context : Context
  memory : μ
  tier : Option Tier
  diagnostics : List Diagnostic

namespace Notes

variable {μ : Type}

def metrics (n : Notes μ) : LocatorMetrics := n.context.metrics

def setMetrics (m : LocatorMetrics) (n : Notes μ) : Notes μ :=
  { n with context := { n.context with metrics := m } }

def setContext (c : Context) (n : Notes μ) : Notes μ := { n with context := c }

def setMemory (m : μ) (n : Notes μ) : Notes μ := { n with memory := m }

def found (r : Resolved) (n : Notes μ) : Notes μ :=
  { n with tier := some r.tier, diagnostics := n.diagnostics ++ r.diagnostic.toList }

end Notes

namespace Engine

variable {β μ : Type}

/-- The parameters and the target of a call with their placeholders resolved, parameters first. -/
def resolveCall (e : Engine β μ) (call : ActionCall) (context : Context) :
    Except ExpressionError (Params × Option String) :=
  let scope : Scope := ⟨call.composite, context, e.template⟩
  match scope.resolveParams call.params with
  | .error error => .error error
  | .ok params =>
      match call.target with
      | none => .ok (params, none)
      | some target => (scope.interpolate target).map fun key => (params, some key)

/-- Resolves the target of an action. Where the action allows it, a target that is not on the page
is passed on as absent, or as the one match that cannot be interacted with. -/
def locate (e : Engine β μ) (spec : ActionSpec) (pack : Option String) :
    Option String → Dialogue (Notes μ) (Except StepError (Option Handle))
  | none => .done (.ok none)
  | some key =>
      match pack with
      | none => .done (.error (.config (.noPack key)))
      | some pack =>
          ((e.resolver.resolve pack key).within Notes.metrics Notes.setMetrics).bind fun
            | .ok resolved => .note (Notes.found resolved) (.done (.ok (some resolved.handle)))
            | .error failure =>
                if spec.target = .absentOk && failure.absent then .done (.ok failure.inert)
                else .done (.error (.resolution failure))

def dispatch (e : Engine β μ) (spec : ActionSpec) (input : ActionInput) :
    Dialogue (Notes μ) (Except StepError Outputs) :=
  match spec.kind with
  | .atomic primitive => (primitive.perform input).within Notes.context Notes.setContext
  | .plugin _ handler => .consult fun notes =>
      (e.plugins handler input.target input.params notes.context).within
        Notes.memory Notes.setMemory

/-- One attempt of an action. `limit` bounds the actions that wait. -/
def attempt (e : Engine β μ) (call : ActionCall) (pack : Option String) (limit : Nat) :
    Dialogue (Notes μ) (Except StepError Outputs) :=
  match e.registry.find? call.keyword with
  | none => .done (.error (.config (.unknownKeyword call.keyword)))
  | some spec => .consult fun notes =>
      match e.resolveCall call notes.context with
      | .error error => .done (.error (.expression error))
      | .ok (params, target) =>
          (e.locate spec pack target).bind fun
            | .error error => .done (.error error)
            | .ok handle => e.dispatch spec ⟨call.keyword, handle, params, limit, e.poll⟩

end Engine
end Journey
