import Journey.Result

/-!
Results as lines for a person to read.
-/

namespace Journey

def resultMark (skipped success : Bool) : String :=
  if skipped then "-" else if success then "✓" else "✗"

def StepResult.lines (r : StepResult) : List String :=
  s!"    {resultMark r.isSkipped r.success} {r.label} ({r.source.text})" ::
    match r.error with
    | some error => [s!"      Error: {error.message}"]
    | none => []

def PhaseResult.lines (r : PhaseResult) : List String :=
  (s!"{resultMark r.skipped r.success} Phase: {r.name} " ++
    s!"({r.failures} failures, tolerance {r.tolerance})")
    :: r.steps.flatMap StepResult.lines

def RecordedError.lines (e : RecordedError) : List String :=
  ["", s!"Root cause: {e.message} [{e.kind.name}]"] ++
    match e.source with
    | some source => [s!"  at {source.text}"]
    | none => []

def LocatorMetrics.lines (m : LocatorMetrics) : List String :=
  ["", s!"Locators: {m.primary} primary, {m.secondary} secondary, {m.tertiary} tertiary, " ++
    s!"{m.failures} failed"]

def WorkflowResult.lines (run : String) (r : WorkflowResult) : List String :=
  let verdict := if r.success then "YES" else "NO"
  ["", s!"=== Workflow Result: {r.workflow} ===", "", s!"Success: {verdict}", s!"Run ID: {run}", ""]
    ++ r.phases.flatMap PhaseResult.lines ++ (r.rootCause.elim [] RecordedError.lines) ++
    r.metrics.lines

end Journey
