import Journey.ActionLine
import Journey.Lint.Pattern
import Journey.Placeholder
import Journey.Workflow

/-!
The purity lint: workflow text says what a user does, never how an element is queried or for how
long to wait. Each action line and each variable is looked at by itself; lines that are neither, or
that cannot be split into words, are left to the compiler.
-/

namespace Journey

inductive LintRule where
  | literalElementQuery
  | literalTimeout
  deriving DecidableEq

def LintRule.label : LintRule → String
  | .literalElementQuery => "literal-element-query"
  | .literalTimeout => "literal-timeout"

def LintRule.name : LintRule → String
  | .literalElementQuery => "literal_element_query"
  | .literalTimeout => "literal_timeout"

inductive Impurity where
  | sleepKeyword (keyword : String)
  | selectorParam (key : String)
  | targetNoKey (target : String)
  | durationParam (key : String)
  | queryValue (value key : String)
  | variableTimeout (name : String)
  | variableQuery (text name : String)
  | variableDuration (name text : String)
  deriving DecidableEq

namespace Impurity

def rule : Impurity → LintRule
  | sleepKeyword _ | durationParam _ | variableTimeout _ | variableDuration _ _ => .literalTimeout
  | selectorParam _ | targetNoKey _ | queryValue _ _ | variableQuery _ _ => .literalElementQuery

def message : Impurity → String
  | sleepKeyword keyword => s!"'{keyword}' is a literal sleep; wait on a condition instead"
  | selectorParam key =>
      s!"parameter '{key}' is a literal element query; use target=<locator key>"
  | targetNoKey target => s!"target '{target}' is not a locator-pack key"
  | durationParam key => s!"parameter '{key}' is a literal timeout; use a named timeout profile"
  | queryValue value key => s!"value '{value}' of '{key}' looks like an element query"
  | variableTimeout name => s!"variable '{name}' is a literal timeout"
  | variableQuery text name => s!"value '{text}' of variable '{name}' looks like an element query"
  | variableDuration name text => s!"variable '{name}' holds a literal duration '{text}'"

end Impurity

structure LintViolation where
  cause : Impurity
  source : SourceRef
  line : String
  deriving DecidableEq

def LintViolation.text (v : LintViolation) : String :=
  s!"{v.source.text}: [{v.cause.rule.label}] {v.cause.message}"

namespace Lint

/-- A number, or text that reads as one with or without a unit. -/
def isLiteralDuration : Value → Bool
  | .int _ | .float _ => true
  | .str s => isDuration (Text.trim s.toList)
  | _ => false

def checkTarget : Value → List Impurity
  | .str s =>
      if isLogicalKey s || (Placeholder.sole? s).isSome then [] else [.targetNoKey s]
  | _ => []

def checkValue (key : String) : Value → List Impurity
  | .str s => if looksLikeQuery (Text.trim s.toList) then [.queryValue s key] else []
  | _ => []

/-- A parameter breaks at most one rule. -/
def checkParam (key : String) (value : Value) : List Impurity :=
  if isSelectorKey key then [.selectorParam key]
  else if key = "target" then checkTarget value
  else if isDurationKey key && isLiteralDuration value then [.durationParam key]
  else checkValue key value

def checkAction (action : ActionLine) : List Impurity :=
  (if sleepKeywords.contains action.keyword then [.sleepKeyword action.keyword] else []) ++
    action.params.flatMap fun (key, value) => checkParam key value

/-- Variables end up in parameters, so the same rules hold for their values. -/
def checkVariable (name : String) : Value → List Impurity
  | .str s =>
      let text := Text.trim s.toList
      if looksLikeQuery text then [.variableQuery (String.ofList text) name]
      else if isUnitDuration text || (isDurationKey name && isDuration text) then
        [.variableDuration name (String.ofList text)]
      else []
  | value =>
      if isDurationKey name && isLiteralDuration value then [.variableTimeout name] else []

def checkLine (raw : List Char) : List Impurity :=
  match Variable.parseLine raw with
  | some (name, .ok value) => checkVariable name value
  | _ =>
      match ActionLine.parse raw with
      | .ok (some action) => checkAction action
      | _ => []

def checkFrom (file : String) (n : Nat) : List (List Char) → List LintViolation
  | [] => []
  | raw :: rest =>
      (checkLine raw).map (fun cause =>
        ⟨cause, ⟨file, n⟩, String.ofList (Text.trim raw)⟩) ++ checkFrom file (n + 1) rest

def check (text file : String) : List LintViolation :=
  checkFrom file 1 (Text.lines text.toList)

end Lint
end Journey
