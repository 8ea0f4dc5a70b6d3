import Journey.Expansion
import Journey.Locator.Record

/-!
Adapters: what an application contributes, namely plugin actions, semantic actions and a locator
pack. Installing a list of adapters builds the registry, seals it, and collects the rest.
-/

namespace Journey

structure Adapter where
  name : String
  plugins : List ActionSpec
  semantic : List (String × Expansion)
  pack : LocatorPack

inductive AdapterFault where
  | badName
  | foreignPlugin (keyword : String)
  | shadowing (keyword : String)
  | registry (error : RegistryError)
  | expansion (error : ExpansionError)
  deriving DecidableEq

structure AdapterError where
  adapter : String
  fault : AdapterFault
  deriving DecidableEq

namespace AdapterError

def detail (e : AdapterError) : String :=
  match e.fault with
  | .badName => "adapter name must be non-empty and contain no '.'"
  | .foreignPlugin keyword =>
      s!"plugin action '{keyword}' is not in namespace plugin.{e.adapter}"
  | .shadowing keyword => s!"semantic action '{keyword}' shadows a registry keyword"
  | .registry error => error.message
  | .expansion error => error.message

def message (e : AdapterError) : String := s!"Adapter '{e.adapter}': {e.detail}"

def chain (e : AdapterError) : List String :=
  match e.fault with
  | .registry error => [e.message, error.message]
  | .expansion error => [e.message, error.message]
  | _ => [e.message]

end AdapterError

structure Installed where
  registry : Registry
  expander : Expander
  packs : List LocatorPack

namespace Adapter

def hasGoodName (a : Adapter) : Bool := !a.name.isEmpty && !a.name.toList.contains '.'

def registerPlugin (a : Adapter) (r : Registry) (spec : ActionSpec) :
    Except AdapterError Registry :=
  if spec.plugin? = some a.name then
    match r.register spec with
    | .ok r => .ok r
    | .error e => .error ⟨a.name, .registry e⟩
  else .error ⟨a.name, .foreignPlugin spec.keyword⟩

def registerPlugins (r : Registry) (a : Adapter) : Except AdapterError Registry :=
  if a.hasGoodName then a.plugins.foldlM a.registerPlugin r
  else .error ⟨a.name, .badName⟩

def registerAction (a : Adapter) (x : Expander) (entry : String × Expansion) :
    Except AdapterError Expander :=
  if x.registry.has entry.1 then .error ⟨a.name, .shadowing entry.1⟩
  else
    match x.register entry.1 entry.2 with
    | .ok x => .ok x
    | .error e => .error ⟨a.name, .expansion e⟩

def registerActions (x : Expander) (a : Adapter) : Except AdapterError Expander :=
  a.semantic.foldlM a.registerAction x

end Adapter

/-- Wires adapters into a registry: first all plugin actions, then, with the registry sealed, all
semantic actions. -/
def install (registry : Registry) (adapters : List Adapter) : Except AdapterError Installed :=
  match adapters.foldlM Adapter.registerPlugins registry with
  | .error e => .error e
  | .ok registry =>
      match adapters.foldlM Adapter.registerActions (.empty registry.sealed) with
      | .error e => .error e
      | .ok expander => .ok ⟨registry.sealed, expander, adapters.map Adapter.pack⟩

/-- A step of a declared expansion; it is left out when the context value named by `unless_` is
truthy. -/
structure StepTemplate where
  keyword : String
  target : Option String
  params : Params
  unless_ : Option String
  deriving DecidableEq

structure ActionTemplate where
  params : List String
  steps : List StepTemplate
  deriving DecidableEq

structure DeclaredAdapter where
  name : String
  pack : Option String
  locators : Dict LocatorSpec
  actions : Dict ActionTemplate
  deriving DecidableEq

namespace StepTemplate

def applies (s : StepTemplate) (context : Context) : Bool :=
  match s.unless_ with
  | none => true
  | some path => !context.isTruthy path

def expanded (s : StepTemplate) : ExpandedStep := ⟨s.keyword, s.target, s.params⟩

end StepTemplate

/-- The expansion of a declared action: all its parameters must be given. -/
def ActionTemplate.expansion (action : String) (t : ActionTemplate) : Expansion :=
  fun params context =>
    match t.params.find? fun param => !Dict.contains params param with
    | some param => .error (.missingParameter action param)
    | none => .ok ((t.steps.filter (·.applies context)).map StepTemplate.expanded)

namespace DeclaredAdapter

def locatorPack (d : DeclaredAdapter) : LocatorPack := ⟨d.pack.getD d.name, d.locators⟩

def adapter (d : DeclaredAdapter) : Adapter :=
  ⟨d.name, [], d.actions.map fun (action, t) => (action, t.expansion action), d.locatorPack⟩

end DeclaredAdapter
end Journey
