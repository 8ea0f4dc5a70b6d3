import Journey.Text.Blank
import Journey.Value

/-!
The registry of action keywords. Each keyword has one spec: what carries it out, which parameters it
needs and how it uses a target. A plugin keyword lies in the namespace of its plugin; once the
registry is sealed nothing more is registered.
-/

namespace Journey

inductive Primitive where
  | goto
  | click
  | fill
  | text
  | waitVisible
  | waitHidden
  | waitNavigation
  | screenshot
  | ctxSet
  | assertVisible
  | assertHidden
  | assertText
  | assertUrl
  | assertEquals
  deriving DecidableEq, Inhabited

def Primitive.name : Primitive → String
  | .goto => "Goto"
  | .click => "Click"
  | .fill => "Fill"
  | .text => "Text"
  | .waitVisible => "WaitVisible"
  | .waitHidden => "WaitHidden"
  | .waitNavigation => "WaitNavigation"
  | .screenshot => "Screenshot"
  | .ctxSet => "CtxSet"
  | .assertVisible => "AssertVisible"
  | .assertHidden => "AssertHidden"
  | .assertText => "AssertText"
  | .assertUrl => "AssertUrl"
  | .assertEquals => "AssertEquals"

def Primitive.all : List Primitive :=
  [.goto, .click, .fill, .text, .waitVisible, .waitHidden, .waitNavigation, .screenshot, .ctxSet,
    .assertVisible, .assertHidden, .assertText, .assertUrl, .assertEquals]

/-- How an action uses the target of its step: not at all, when given, always, or always but with
the failure to find it meaning that it is absent. -/
inductive TargetUse where
  | none
  | optional
  | required
  | absentOk
  deriving DecidableEq, Inhabited

def TargetUse.name : TargetUse → String
  | .none => "None"
  | .optional => "Optional"
  | .required => "Required"
  | .absentOk => "AbsentOk"

/-- A reference to what carries out an action of a plugin. Specs hold on to it; what is behind it is
given to the engine. -/
structure Handler where
  ref : String
  deriving DecidableEq, Inhabited

inductive ActionKind where
  | atomic (primitive : Primitive)
  | plugin (name : String) (handler : Handler)
  deriving DecidableEq, Inhabited

structure ActionSpec where
  keyword : String
  kind : ActionKind
  requiredParams : List String
  target : TargetUse
  description : String
  deriving DecidableEq

namespace ActionSpec

def atomic (keyword : String) (primitive : Primitive) (target : TargetUse)
    (requiredParams : List String) (description : String) : ActionSpec :=
  ⟨keyword, .atomic primitive, requiredParams, target, description⟩

def pluginKeyword (plugin word : String) : String := s!"plugin.{plugin}.{word}"

def requiresTarget (s : ActionSpec) : Bool := s.target == .required || s.target == .absentOk

def acceptsTarget (s : ActionSpec) : Bool := s.target != .none

def plugin? (s : ActionSpec) : Option String :=
  match s.kind with
  | .atomic _ => none
  | .plugin name _ => some name

/-- Whether a plugin keyword is one point-free word in the namespace of its plugin. -/
def inNamespace (plugin keyword : String) : Bool :=
  match Text.after? s!"plugin.{plugin}.".toList keyword.toList with
  | some word => !word.isEmpty && !word.contains '.'
  | none => false

def builtins : List ActionSpec := [
  atomic "page.goto" .goto .none ["url"] "Navigate the page to a URL",
  atomic "element.click" .click .required [] "Click an element",
  atomic "element.fill" .fill .required ["value"] "Replace an input's value",
  atomic "element.text" .text .required [] "Read an element's text into output 'text'",
  atomic "wait.visible" .waitVisible .required [] "Wait until an element is visible",
  atomic "wait.hidden" .waitHidden .absentOk [] "Wait until an element is hidden or absent",
  atomic "wait.navigation" .waitNavigation .none [] "Wait for the current navigation to settle",
  atomic "browser.screenshot" .screenshot .none [] "Capture a screenshot into output 'evidence'",
  atomic "ctx.set" .ctxSet .none ["key", "value"] "Store a value in the execution context",
  atomic "assert.visible" .assertVisible .required [] "Element is visible",
  atomic "assert.hidden" .assertHidden .absentOk [] "Element is hidden or absent",
  atomic "assert.text" .assertText .required ["text"] "Element text contains 'text'",
  atomic "assert.url" .assertUrl .none ["contains"] "Current URL contains 'contains'",
  atomic "assert.equals" .assertEquals .none ["actual", "expected"] "Two resolved values are equal"]

end ActionSpec

inductive RegistryError where
  | unknownKeyword (keyword : String)
  | duplicate (keyword : String)
  | isSealed (keyword : String)
  | invalidPluginKeyword (keyword : String)
  deriving DecidableEq

def RegistryError.message : RegistryError → String
  | .unknownKeyword keyword => s!"Unknown action keyword: {keyword}"
  | .duplicate keyword => s!"Action keyword registered twice: {keyword}"
  | .isSealed keyword => s!"Registry is sealed, cannot register: {keyword}"
  | .invalidPluginKeyword keyword =>
      s!"Invalid plugin keyword '{keyword}': expected plugin.<name>.<keyword>"

structure Registry where
  actions : Dict ActionSpec
  isSealed : Bool
  deriving DecidableEq

namespace Registry

def empty : Registry := ⟨[], false⟩

def find? (r : Registry) (keyword : String) : Option ActionSpec := Dict.find? r.actions keyword

def has (r : Registry) (keyword : String) : Bool := Dict.contains r.actions keyword

def get (r : Registry) (keyword : String) : Except RegistryError ActionSpec :=
  match r.find? keyword with
  | some spec => .ok spec
  | none => .error (.unknownKeyword keyword)

def wellShaped (spec : ActionSpec) : Bool :=
  match spec.plugin? with
  | some plugin => ActionSpec.inNamespace plugin spec.keyword
  | none => true

def register (r : Registry) (spec : ActionSpec) : Except RegistryError Registry :=
  if r.isSealed then .error (.isSealed spec.keyword)
  else if !wellShaped spec then .error (.invalidPluginKeyword spec.keyword)
  else if r.has spec.keyword then .error (.duplicate spec.keyword)
  else .ok { r with actions := Dict.insert spec.keyword spec r.actions }

def registerAll (r : Registry) (specs : List ActionSpec) : Except RegistryError Registry :=
  specs.foldlM register r

def sealed (r : Registry) : Registry := { r with isSealed := true }

def builtin : Registry :=
  ⟨Dict.ofList (ActionSpec.builtins.map fun spec => (spec.keyword, spec)), false⟩

def specs (r : Registry) : List ActionSpec := r.actions.map Prod.snd

def size (r : Registry) : Nat := r.actions.length

end Registry
end Journey
