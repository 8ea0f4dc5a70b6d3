import Journey.Context
import Journey.Registry

/-!
Semantic actions: business-level keywords that expand, when a step runs, into steps over registered
actions. The expander checks every keyword that an expansion brings in against the registry.
-/

namespace Journey

inductive ExpansionError where
  | unknownAction (action : String)
  | duplicate (action : String)
  | unknownPrimitive (action keyword : String)
  | missingParameter (action param : String)
  | failed (action detail : String)
  deriving DecidableEq

def ExpansionError.message : ExpansionError → String
  | .unknownAction action => s!"unknown semantic action: {action}"
  | .duplicate action => s!"semantic action registered twice: {action}"
  | .unknownPrimitive action keyword =>
      s!"semantic action '{action}' expanded to unknown action keyword '{keyword}'"
  | .missingParameter action param =>
      s!"semantic action '{action}' is missing parameter '{param}'"
  | .failed action detail => s!"semantic action '{action}' failed to expand: {detail}"

/-- One step of an expansion; its placeholders are resolved when it runs. -/
structure ExpandedStep where
  keyword : String
  target : Option String
  params : Params
  deriving DecidableEq

abbrev Expansion := Params → Context → Except ExpansionError (List ExpandedStep)

structure Expander where
  registry : Registry
  actions : Dict Expansion

namespace Expander

def empty (registry : Registry) : Expander := ⟨registry, []⟩

def has (x : Expander) (keyword : String) : Bool := Dict.contains x.actions keyword

def keywords (x : Expander) : List String := Dict.keys x.actions

def register (x : Expander) (keyword : String) (expansion : Expansion) :
    Except ExpansionError Expander :=
  if x.has keyword then .error (.duplicate keyword)
  else .ok { x with actions := Dict.insert keyword expansion x.actions }

/-- Expands a semantic action into steps whose keywords are all registered. -/
def expand (x : Expander) (keyword : String) (params : Params) (context : Context) :
    Except ExpansionError (List ExpandedStep) :=
  match Dict.find? x.actions keyword with
  | none => .error (.unknownAction keyword)
  | some expansion =>
      match expansion params context with
      | .error e => .error e
      | .ok steps =>
          match steps.find? fun step => !x.registry.has step.keyword with
          | some step => .error (.unknownPrimitive keyword step.keyword)
          | none => .ok steps

end Expander
end Journey
