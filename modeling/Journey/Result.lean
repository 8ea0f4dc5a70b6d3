import Journey.Perform

/-!
Results of steps, phases and workflows. A step that was passed over carries the reason; only a
failure that is neither passed over nor optional counts against its phase.
-/

namespace Journey

structure ActionResult where
  label : String
  keyword : String
  source : SourceRef
  success : Bool
  skipped : Option String
  optional : Bool
  error : Option StepError
  attempts : Nat
  tier : Option Tier
  diagnostics : List Diagnostic
  evidence : List String
  outputs : Outputs
  deriving DecidableEq

namespace ActionResult

def blank (step : Step) : ActionResult :=
  ⟨step.label, step.keyword, step.source, false, none, step.optional, none, 0, none, [], [], []⟩

def passedOver (step : Step) (reason : String) : ActionResult :=
  { blank step with skipped := some reason }

def isSkipped (r : ActionResult) : Bool := r.skipped.isSome

def isCountedFailure (r : ActionResult) : Bool := !r.success && !r.isSkipped && !r.optional

def recordedError? (r : ActionResult) : Option RecordedError :=
  r.error.map fun e => ⟨e.kind, e.message, r.keyword, some r.source⟩

end ActionResult

/-- The result of a step; a composite step has one for each action it expanded to. -/
structure StepResult extends ActionResult where
  children : List ActionResult
  deriving DecidableEq

namespace StepResult

def plain (r : ActionResult) : StepResult := { r with children := [] }

def passedOver (step : Step) (reason : String) : StepResult :=
  plain (.passedOver step reason)

end StepResult

/-- The result of a phase; `skipped` says that it was never started. -/
structure PhaseResult where
  name : String
  mode : PhaseMode
  success : Bool
  skipped : Bool
  failures : Nat
  tolerance : Nat
  steps : List StepResult
  deriving DecidableEq

structure WorkflowResult where
  workflow : String
  digest : String
  success : Bool
  setup : List StepResult
  phases : List PhaseResult
  recovery : List StepResult
  teardown : List StepResult
  rootCause : Option RecordedError
  metrics : LocatorMetrics
  deriving DecidableEq

namespace WorkflowResult

/-- The results of setup and phases in the order of execution. -/
def trace (r : WorkflowResult) : List StepResult := r.setup ++ r.phases.flatMap PhaseResult.steps

end WorkflowResult
end Journey
