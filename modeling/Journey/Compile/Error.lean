import Journey.Lint
import Journey.Registry
import Journey.Value.Printer

/-!
Why a workflow text does not compile, and where.
-/

namespace Journey

inductive CompileFault where
  | impure (cause : Impurity)
  | strayEnd
  | noWorkflowName
  | outsideWorkflow (line : String)
  | unfinishedWorkflow (name : String)
  | noWorkflow
  | severalWorkflows (count : Nat)
  | token (error : TokenError)
  | registry (error : RegistryError)
  | actionOutside
  | emptyPhase (name : String)
  | wrongEnd (given expected : String)
  | endWithoutBlock (given : String)
  | unexpectedInside (block line : String)
  | duplicateBlock (name : String)
  | duplicateVariable (name : String)
  | unrecognized (line : String)
  | nestedWorkflow
  | policy (error : PolicyError)
  | duplicatePhase (name : String)
  | notAName (key : String) (value : Value)
  | unknownProfile (profile : String)
  | badRetry (value : Value)
  | parameterTwice (key : String)
  | unexpectedToken (token : String)
  | targetMissing (keyword : String)
  | targetRefused (keyword : String)
  | parameterMissing (keyword param : String)
  | wordAfterOptions (word : String)
  | badTolerance (value : Value)
  | unknownPhaseOption (key : String)
  | noPhaseName
  | toleranceWithoutRecover
  | unclosedPhase (name : String) (close : SourceRef)
  | unclosedBlock (name : String) (close : SourceRef)
  | noPhases (workflow : String)
  deriving DecidableEq

def CompileFault.message : CompileFault → String
  | .impure cause => s!"[{cause.rule.label}] {cause.message}"
  | .strayEnd => "'end workflow' without 'workflow:'"
  | .noWorkflowName => "workflow name is required"
  | .outsideWorkflow line => s!"statement outside of a workflow: '{line}'"
  | .unfinishedWorkflow name => s!"workflow '{name}' is missing 'end workflow'"
  | .noWorkflow => "no workflow found (expected 'workflow: <name>')"
  | .severalWorkflows count =>
      s!"expected exactly one workflow, found {count}; use compile_all"
  | .token error => error.message
  | .registry error => error.message
  | .actionOutside => "action outside of a phase or setup/recovery/teardown block"
  | .emptyPhase name => s!"phase '{name}' has no steps"
  | .wrongEnd given expected => s!"'end {given}' does not close the open '{expected}' block"
  | .endWithoutBlock given => s!"'end {given}' without a matching block"
  | .unexpectedInside block line =>
      s!"unexpected statement inside '{block}': '{line}' (missing 'end'?)"
  | .duplicateBlock name => s!"duplicate '{name}' block"
  | .duplicateVariable name => s!"variable '{name}' declared twice"
  | .unrecognized line => s!"unrecognized statement: '{line}'"
  | .nestedWorkflow => "nested 'workflow:' (missing 'end workflow'?)"
  | .policy error => error.message
  | .duplicatePhase name => s!"duplicate phase name '{name}'"
  | .notAName key value => s!"'{key}' must be a name, got {value.text}"
  | .unknownProfile profile => s!"unknown timeout profile '{profile}'"
  | .badRetry value => s!"retry must be a positive integer, got {value.text}"
  | .parameterTwice key => s!"parameter '{key}' given twice"
  | .unexpectedToken word => s!"unexpected token '{word}' (parameters are key=value)"
  | .targetMissing keyword => s!"'{keyword}' requires target=<locator key>"
  | .targetRefused keyword => s!"'{keyword}' does not take a target"
  | .parameterMissing keyword param =>
      s!"'{keyword}' is missing required parameter '{param}'"
  | .wordAfterOptions word => s!"unexpected '{word}' after phase options"
  | .badTolerance value => s!"tolerance must be a non-negative integer, got {value.text}"
  | .unknownPhaseOption key => s!"unknown phase option '{key}'"
  | .noPhaseName => "phase name is required"
  | .toleranceWithoutRecover => "tolerance only applies to mode=recover phases"
  | .unclosedPhase name close =>
      s!"phase '{name}' is not closed before 'end workflow' ({close.text})"
  | .unclosedBlock name close =>
      s!"'{name}' block is not closed before 'end workflow' ({close.text})"
  | .noPhases workflow => s!"workflow '{workflow}' declares no phases"

structure CompileError where
  source : SourceRef
  fault : CompileFault
  deriving DecidableEq

namespace CompileError

def message (e : CompileError) : String := e.fault.message

def text (e : CompileError) : String := s!"{e.source.text}: {e.message}"

end CompileError
end Journey
