import Journey.Expansion
import Journey.Policy
import Journey.Scope

/-!
Why one attempt of a step fails, the class of each failure, and whether another attempt may help:
a failed look-up does when a strategy was tried at all, browser errors and step timeouts do as the
retry policy says, and everything else is final.
-/

namespace Journey

inductive AssertionFault where
  | notVisible (handle : Handle)
  | visible (handle : Handle)
  | textLacks (expected actual : String)
  | urlLacks (part url : String)
  | notEqual (expected actual : Value)
  | other (detail : String)
  deriving DecidableEq

def AssertionFault.message : AssertionFault → String
  | .notVisible handle => s!"Element {handle} is not visible"
  | .visible handle => s!"Element {handle} is visible"
  | .textLacks expected actual => s!"Expected text containing '{expected}', got '{actual}'"
  | .urlLacks part url => s!"Expected URL containing '{part}', got '{url}'"
  | .notEqual expected actual => s!"Expected {expected.text}, got {actual.text}"
  | .other detail => detail

inductive ParameterFault where
  | missing (keyword param : String)
  | noTarget (keyword : String)
  | other (detail : String)
  deriving DecidableEq

def ParameterFault.message : ParameterFault → String
  | .missing keyword param => s!"{keyword}: missing '{param}'"
  | .noTarget keyword => s!"{keyword}: no target"
  | .other detail => detail

inductive ConfigFault where
  | unknownKeyword (keyword : String)
  | unknownProfile (profile : String)
  | noPack (key : String)
  | notBrowserAction (primitive : Primitive)
  | notAssertion (primitive : Primitive)
  | other (detail : String)
  deriving DecidableEq

def ConfigFault.message : ConfigFault → String
  | .unknownKeyword keyword => (RegistryError.unknownKeyword keyword).message
  | .unknownProfile profile => s!"unknown timeout profile '{profile}'"
  | .noPack key => s!"'{key}' needs a locator pack; declare 'locators:' in the workflow"
  | .notBrowserAction primitive => s!"{primitive.name} is not a browser primitive"
  | .notAssertion primitive => s!"{primitive.name} is not an assertion primitive"
  | .other detail => detail

inductive StepError where
  | resolution (failure : ResolutionFailure)
  | action (keyword : String) (error : BrowserError)
  | assertion (fault : AssertionFault)
  | expansion (error : ExpansionError)
  | expression (error : ExpressionError)
  | timeout (limit : Nat)
  | parameter (fault : ParameterFault)
  | config (fault : ConfigFault)
  | cancelled
  deriving DecidableEq

namespace StepError

def kind : StepError → ErrorKind
  | resolution _ => .resolution
  | action _ _ => .actionExecution
  | assertion _ => .assertion
  | expansion _ => .expansion
  | expression _ => .expression
  | timeout _ => .timeout
  | parameter _ | config _ => .config
  | cancelled => .cancelled

def message : StepError → String
  | resolution failure => failure.message
  | action keyword error => s!"Action '{keyword}' failed: {error.message}"
  | assertion fault => s!"Assertion failed: {fault.message}"
  | expansion error => error.message
  | expression error => s!"Expression error: {error.message}"
  | timeout limit => s!"Step timed out after {limit}ms"
  | parameter fault => s!"Invalid parameter: {fault.message}"
  | config fault => s!"Configuration error: {fault.message}"
  | cancelled => "Cancelled before execution"

def isRetryable (policy : RetryPolicy) : StepError → Bool
  | resolution failure => !failure.attempted.isEmpty
  | action _ error => policy.isTransient error.kind
  | timeout _ => policy.isTransient .timeout
  | assertion _ | expansion _ | expression _ | parameter _ | config _ | cancelled => false

def attemptedTiers : StepError → List Tier
  | resolution failure => failure.attempted
  | _ => []

end StepError
end Journey
