import Journey.Context.Record
import Journey.Locator.Record
import Journey.Result

/-!
Results written as data. Reasons, children and tiers that do not apply are left out.
-/

namespace Journey

def Diagnostic.toValue (d : Diagnostic) : Value :=
  .ofFields [("severity", .str d.severity.name), ("message", .str d.message)]

def tiersValue (tiers : List Tier) : Value := .ofStrings (tiers.map Tier.name)

def StepError.toValue (e : StepError) : Value :=
  .ofFields (
    [("kind", .str e.kind.name), ("message", .str e.message)] ++
      if e.attemptedTiers.isEmpty then [] else [("attempted_tiers", tiersValue e.attemptedTiers)])

def ActionResult.fields (r : ActionResult) : List (String × Value) :=
  [("label", .str r.label), ("keyword", .str r.keyword), ("source", r.source.toValue),
    ("success", .bool r.success), ("skipped", .bool r.isSkipped), ("optional", .bool r.optional),
    ("error", .ofOption StepError.toValue r.error), ("attempts", .int r.attempts),
    ("tier", .ofOption (fun t => .str t.name) r.tier),
    ("diagnostics", .arr (r.diagnostics.map Diagnostic.toValue)),
    ("evidence", .ofStrings r.evidence), ("outputs", .obj r.outputs)] ++
    match r.skipped with
    | some reason => [("skip_reason", .str reason)]
    | none => []

def ActionResult.toValue (r : ActionResult) : Value := .ofFields r.fields

def StepResult.toValue (r : StepResult) : Value :=
  .ofFields (r.fields ++
    if r.children.isEmpty then []
    else [("children", .arr (r.children.map ActionResult.toValue))])

def PhaseResult.toValue (p : PhaseResult) : Value :=
  .ofFields [
    ("name", .str p.name), ("mode", .str p.mode.name), ("success", .bool p.success),
    ("skipped", .bool p.skipped), ("failures", .int p.failures), ("tolerance", .int p.tolerance),
    ("steps", .arr (p.steps.map StepResult.toValue))]

def WorkflowResult.toValue (r : WorkflowResult) : Value :=
  .ofFields [
    ("workflow", .str r.workflow), ("digest", .str r.digest),
    ("outcome", .str (if r.success then "succeeded" else "failed")),
    ("setup", .arr (r.setup.map StepResult.toValue)),
    ("phases", .arr (r.phases.map PhaseResult.toValue)),
    ("recovery", .arr (r.recovery.map StepResult.toValue)),
    ("teardown", .arr (r.teardown.map StepResult.toValue)),
    ("root_cause", .ofOption RecordedError.toValue r.rootCause),
    ("locator_metrics", r.metrics.toValue)]

end Journey
