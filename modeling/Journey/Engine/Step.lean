import Journey.Engine

/-!
Carrying out one step: attempts with pauses between them until one succeeds, fails for good, or is
the last; the expansion of a composite step into actions that run in order until one fails; outputs
stored after a success and evidence gathered after a failure.
-/

namespace Journey

/-- Where a run stands: the outside, the context, and the memory of the plugins. -/
structure Scene (β μ : Type) where
  world : World β
  context : Context
  memory : μ

structure AttemptResult where
  outcome : Except StepError Outputs
  tier : Option Tier
  diagnostics : List Diagnostic

namespace Engine

variable {β μ : Type}

/-- Runs one attempt under the time of its step; an attempt that is cut off has timed out. -/
def runAttempt (e : Engine β μ) (call : ActionCall) (pack : Option String) (limit : Nat)
    (scene : Scene β μ) : AttemptResult × Scene β μ :=
  let ending := (e.attempt call pack limit).run e.browser (some (scene.world.now + limit))
    scene.world ⟨scene.context, scene.memory, none, []⟩
  (⟨ending.result.getD (.error (.timeout limit)), ending.notes.tier, ending.notes.diagnostics⟩,
    ⟨ending.world, ending.notes.context, ending.notes.memory⟩)

/-- The number of attempts a step may have: its own, or one if it is optional and the policy does
not say otherwise, or that of the policy. -/
def attemptBound (e : Engine β μ) (step : Step) : Nat :=
  match step.retry with
  | some bound => max bound 1
  | none =>
      if step.optional && !e.settings.retry.retryOptional then 1
      else max e.settings.retry.maxAttempts 1

def evidenceIn (outputs : Outputs) : List String :=
  match Dict.find? outputs "evidence" with
  | some (.str shot) => [shot]
  | _ => []

def attemptReport (step : Step) (number : Nat) (r : AttemptResult) : ActionResult :=
  match r.outcome with
  | .ok outputs =>
      { ActionResult.blank step with
        success := true, attempts := number, tier := r.tier, diagnostics := r.diagnostics,
        evidence := evidenceIn outputs, outputs := outputs }
  | .error error =>
      { ActionResult.blank step with
        error := some error, attempts := number, tier := r.tier, diagnostics := r.diagnostics }

def triesAgain (e : Engine β μ) (r : AttemptResult) : Bool :=
  match r.outcome with
  | .ok _ => false
  | .error error => error.isRetryable e.settings.retry

def rest (e : Engine β μ) (number : Nat) (scene : Scene β μ) : Scene β μ :=
  { scene with world := scene.world.sleep (e.settings.retry.backoff number) }

/-- Makes attempt `number` and, while it helps, up to `spare` further ones. -/
def attemptFrom (e : Engine β μ) (step : Step) (call : ActionCall) (pack : Option String)
    (limit : Nat) : (spare number : Nat) → Scene β μ → ActionResult × Scene β μ
  | 0, number, scene =>
      let (r, scene) := e.runAttempt call pack limit scene
      (attemptReport step number r, scene)
  | spare + 1, number, scene =>
      let (r, scene) := e.runAttempt call pack limit scene
      if e.triesAgain r then
        attemptFrom e step call pack limit spare (number + 1) (e.rest number scene)
      else (attemptReport step number r, scene)

def carryOut (e : Engine β μ) (step : Step) (call : ActionCall) (pack : Option String)
    (scene : Scene β μ) : ActionResult × Scene β μ :=
  match e.settings.timeouts.stepTimeout? step.timeout with
  | none =>
      ({ ActionResult.blank step with
          error := some (.config (.unknownProfile (step.timeout.getD ""))) }, scene)
  | some limit => e.attemptFrom step call pack limit (e.attemptBound step - 1) 1 scene

def childLabel (step : Step) (index total : Nat) (call : ActionCall) : String :=
  s!"{step.keyword} [{index}/{total}] {call.label}"

def asChild (step : Step) (index total : Nat) (call : ActionCall) (r : ActionResult) :
    ActionResult :=
  { r with label := childLabel step index total call, keyword := call.keyword }

def passOver (step : Step) (total : Nat) (composite : Params) (reason : String) :
    (index : Nat) → List ExpandedStep → List ActionResult
  | _, [] => []
  | index, child :: rest =>
      asChild step index total (child.call composite) (.passedOver step reason) ::
        passOver step total composite reason (index + 1) rest

def carryOutAll (e : Engine β μ) (step : Step) (pack : Option String) (total : Nat)
    (composite : Params) :
    (index : Nat) → List ExpandedStep → Scene β μ → List ActionResult × Scene β μ
  | _, [], scene => ([], scene)
  | index, child :: rest, scene =>
      let call := child.call composite
      let (r, scene) := e.carryOut step call pack scene
      let r := asChild step index total call r
      if r.success then
        let (more, scene) := carryOutAll e step pack total composite (index + 1) rest scene
        (r :: more, scene)
      else
        let reason := s!"'{step.keyword}' step {index} failed"
        (r :: passOver step total composite reason (index + 1) rest, scene)

def executed (children : List ActionResult) : List ActionResult :=
  children.filter fun r => !r.isSkipped

/-- The result of a composite step from those of its actions: it succeeds if all do, and fails as
the first that does. -/
def compositeReport (step : Step) (children : List ActionResult) : StepResult :=
  let run := executed children
  let good := run.filter (·.success)
  { ActionResult.blank step with
    success := run.all (·.success)
    error := (run.find? fun r => !r.success).bind (·.error)
    attempts := 1
    tier := (run.map (·.tier)).foldl Tier.worst none
    diagnostics := run.flatMap (·.diagnostics)
    evidence := good.flatMap (·.evidence)
    outputs := good.foldl (fun all r => Dict.insertAll all r.outputs) []
    children := children }

def compositeFailure (step : Step) (error : StepError) : StepResult :=
  .plain { ActionResult.blank step with attempts := 1, error := some error }

/-- Carries out a composite step: its parameters are resolved, it is expanded once, and its actions
run in order. -/
def carryOutComposite (e : Engine β μ) (step : Step) (pack : Option String) (scene : Scene β μ) :
    StepResult × Scene β μ :=
  let scope : Scope := ⟨none, scene.context, e.template⟩
  match scope.resolveParams step.params with
  | .error error => (compositeFailure step (.expression error), scene)
  | .ok params =>
      match e.expander.expand step.keyword params scene.context with
      | .error error => (compositeFailure step (.expansion error), scene)
      | .ok actions =>
          let (children, scene) :=
            e.carryOutAll step pack actions.length params 1 actions scene
          (compositeReport step children, scene)

/-- Adds what the collector gathers to the evidence; a collector that fails adds nothing. -/
def gather (e : Engine β μ) (step : Step) (r : StepResult) (scene : Scene β μ) :
    StepResult × Scene β μ :=
  match e.collector with
  | none => (r, scene)
  | some collect =>
      let ending := (collect step.source r.label).run e.browser none scene.world scene.memory
      let found :=
        match ending.result with
        | some (.ok handles) => handles
        | _ => []
      ({ r with evidence := r.evidence ++ found },
        { scene with world := ending.world, memory := ending.notes })

def storeOutputs (step : Step) (r : StepResult) (scene : Scene β μ) : Scene β μ :=
  match step.id with
  | some id => { scene with context := scene.context.setOutputs id r.outputs }
  | none => scene

def carryOutStep (e : Engine β μ) (step : Step) (pack : Option String) (scene : Scene β μ) :
    StepResult × Scene β μ :=
  match step.kind with
  | .semantic => e.carryOutComposite step pack scene
  | .atomic | .plugin _ =>
      let (r, scene) := e.carryOut step step.call pack scene
      (.plain r, scene)

/-- Carries out a step; what it gives back is stored, or else evidence of its failure is gathered. -/
def executeStep (e : Engine β μ) (step : Step) (pack : Option String) (scene : Scene β μ) :
    StepResult × Scene β μ :=
  let (r, scene) := e.carryOutStep step pack scene
  if r.success then (r, storeOutputs step r scene) else e.gather step r scene

end Engine
end Journey
