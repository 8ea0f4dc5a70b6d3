import Journey.Engine.Step

/-!
Running a workflow: variables first, then the setup block, the phases, the recovery block if
anything failed, and the teardown block. A strict block stops at its first counted failure, a
recovering one counts failures against a tolerance, and a best-effort one never fails. Cancellation
is looked at before each step of setup and phases.
-/

namespace Journey

inductive BlockPolicy where
  | strict
  | recover (tolerance : Nat)
  | bestEffort
  deriving DecidableEq

/-- What a block has seen so far: its counted failures and the first of them, why the rest is
passed over, and whether that is because of cancellation. -/
structure Tally where
  failures : Nat
  first : Option RecordedError
  stop : Option String
  cancelled : Bool
  deriving DecidableEq

def Tally.zero : Tally := ⟨0, none, none, false⟩

structure BlockResult where
  steps : List StepResult
  failures : Nat
  success : Bool
  cancelled : Bool

inductive RunError where
  | packNotLoaded (workflow pack : String) (available : List String)
  | expression (error : ExpressionError)
  deriving DecidableEq

namespace RunError

def message : RunError → String
  | packNotLoaded workflow pack available =>
      let loaded := ", ".intercalate available
      s!"Configuration error: workflow '{workflow}' uses locator pack '{pack}', " ++
        s!"which is not loaded (available: {loaded})"
  | expression error => s!"Expression error: {error.message}"

def chain : RunError → List String
  | e@(packNotLoaded _ _ _) => [e.message]
  | e@(expression error) => [e.message, error.message]

end RunError

inductive RunState where
  | idle
  | succeeded
  | failed
  deriving DecidableEq

/-- A workflow that cannot be run leaves the state as it was. -/
def RunState.after (state : RunState) : Except RunError WorkflowResult → RunState
  | .ok r => if r.success then .succeeded else .failed
  | .error _ => state

def Step.cancelledError (step : Step) : RecordedError :=
  ⟨.cancelled, StepError.cancelled.message, step.keyword, some step.source⟩

def Context.recordFirst (c : Context) : Option RecordedError → Context
  | some cause => c.recordRootCause cause
  | none => c

namespace Tally

def counts (policy : BlockPolicy) (r : StepResult) : Bool :=
  !r.success && !r.optional && policy != .bestEffort

def after (policy : BlockPolicy) (tally : Tally) (step : Step) (r : StepResult) : Tally :=
  if counts policy r then
    { tally with
      failures := tally.failures + 1
      first := tally.first <|> r.recordedError?
      stop := if policy = .strict then some s!"earlier step failed at {step.source.text}"
        else tally.stop }
  else tally

/-- The tally once cancellation has been seen; its first failure has been recorded by then. -/
def cancel (tally : Tally) : Tally := ⟨tally.failures, none, some "cancelled", true⟩

def success (policy : BlockPolicy) (tally : Tally) : Bool :=
  !tally.cancelled &&
    match policy with
    | .strict => tally.failures == 0
    | .recover tolerance => tally.failures ≤ tolerance
    | .bestEffort => true

end Tally

namespace Scene

variable {β μ : Type}

/-- A look at the flag before a step. Best-effort blocks run to their end whatever it shows. -/
def look (scene : Scene β μ) (policy : BlockPolicy) : Bool × Scene β μ :=
  if policy = .bestEffort then (false, scene)
  else (scene.world.look.1, { scene with world := scene.world.look.2 })

def atStep (scene : Scene β μ) (block : String) (index : Nat) : Scene β μ :=
  { scene with context := { scene.context with phase := some block, step := some index } }

/-- Records the root cause when cancellation is seen before a step: the first failure of the block,
or else the cancellation itself. -/
def cancelBefore (scene : Scene β μ) (tally : Tally) (step : Step) : Scene β μ :=
  { scene with
    context := (scene.context.recordFirst tally.first).recordRootCause step.cancelledError }

end Scene

namespace Engine

variable {β μ : Type}

def runSteps (e : Engine β μ) (block : String) (policy : BlockPolicy) (pack : Option String) :
    (index : Nat) → List Step → Tally → Scene β μ → List StepResult × Tally × Scene β μ
  | _, [], tally, scene => ([], tally, scene)
  | index, step :: rest, tally, scene =>
      match tally.stop with
      | some reason =>
          let (more, tally, scene) := runSteps e block policy pack (index + 1) rest tally scene
          (.passedOver step reason :: more, tally, scene)
      | none =>
          let (asked, scene) := scene.look policy
          if asked then
            let (more, after, scene) := runSteps e block policy pack (index + 1) rest tally.cancel
              (scene.cancelBefore tally step)
            (.passedOver step "cancelled" :: more, after, scene)
          else
            let (r, scene) := e.executeStep step pack (scene.atStep block index)
            let (more, tally, scene) :=
              runSteps e block policy pack (index + 1) rest (tally.after policy step r) scene
            (r :: more, tally, scene)

/-- Runs a block. If it fails, its first counted failure is recorded as the root cause. -/
def runBlock (e : Engine β μ) (block : String) (policy : BlockPolicy) (pack : Option String)
    (steps : List Step) (scene : Scene β μ) : BlockResult × Scene β μ :=
  let (results, tally, scene) := e.runSteps block policy pack 0 steps .zero scene
  let success := tally.success policy
  let scene :=
    if success then scene
    else { scene with context := scene.context.recordFirst tally.first }
  (⟨results, tally.failures, success, tally.cancelled⟩, scene)

def phaseMode (e : Engine β μ) (phase : Phase) : PhaseMode :=
  phase.mode.getD e.settings.phases.defaultMode

def phaseTolerance (e : Engine β μ) (phase : Phase) : Nat :=
  match e.phaseMode phase with
  | .strict => 0
  | .recover => phase.tolerance.getD e.settings.phases.recoverTolerance

def phasePolicy (e : Engine β μ) (phase : Phase) : BlockPolicy :=
  match e.phaseMode phase with
  | .strict => .strict
  | .recover => .recover (e.phaseTolerance phase)

def haltedPhase (e : Engine β μ) (phase : Phase) : PhaseResult :=
  ⟨phase.name, e.phaseMode phase, false, true, 0, e.phaseTolerance phase,
    phase.steps.map (.passedOver · "workflow halted before this phase")⟩

def phaseResult (e : Engine β μ) (phase : Phase) (r : BlockResult) : PhaseResult :=
  ⟨phase.name, e.phaseMode phase, r.success, false, r.failures, e.phaseTolerance phase, r.steps⟩

/-- Whether later phases still run after a phase has failed. -/
def continuesPast (e : Engine β μ) (w : Workflow) : Bool :=
  match w.onPhaseFailure with
  | some policy => policy == .continue
  | none => e.settings.phases.continuePastFailure

/-- Runs the phases in order. Once halted, the rest is passed over. -/
def runPhases (e : Engine β μ) (goesOn : Bool) (pack : Option String) :
    (halted : Bool) → List Phase → Scene β μ → List PhaseResult × Scene β μ
  | _, [], scene => ([], scene)
  | true, phase :: rest, scene =>
      let (more, scene) := runPhases e goesOn pack true rest scene
      (e.haltedPhase phase :: more, scene)
  | false, phase :: rest, scene =>
      let (r, scene) := e.runBlock phase.name (e.phasePolicy phase) pack phase.steps scene
      let halted := !r.success && (r.cancelled || !goesOn)
      let (more, scene) := runPhases e goesOn pack halted rest scene
      (e.phaseResult phase r :: more, scene)

/-- Sets the variables of a workflow in the order of their names, each seeing those before it. -/
def seed (e : Engine β μ) : List (String × Value) → Context → Except ExpressionError Context
  | [], context => .ok context
  | (name, value) :: rest, context =>
      match (Scope.mk none context e.template).resolve value with
      | .error error => .error error
      | .ok resolved => e.seed rest (context.set name resolved)

def runBlocks (e : Engine β μ) (w : Workflow) (scene : Scene β μ) : WorkflowResult × Scene β μ :=
  let pack := w.locatorPack
  let (setup, scene) := e.runBlock "setup" .strict pack w.setup scene
  let (phases, scene) := e.runPhases (e.continuesPast w) pack (!setup.success) w.phases scene
  let failed := !setup.success || phases.any fun p => !p.skipped && !p.success
  let (recovery, scene) :=
    if failed then e.runBlock "recovery" .bestEffort pack w.recovery scene
    else (⟨[], 0, true, false⟩, scene)
  let (teardown, scene) := e.runBlock "teardown" .bestEffort pack w.teardown scene
  (⟨w.name, w.digest, !failed, setup.steps, phases, recovery.steps, teardown.steps,
    if failed then scene.context.lastError else none, scene.context.metrics⟩, scene)

/-- The context in which the first step of a workflow runs, unless its pack is missing or one of
its variables refers to nothing. -/
def prepare (e : Engine β μ) (w : Workflow) : Except RunError Context :=
  match w.locatorPack with
  | some pack =>
      if e.resolver.hasPack pack then (e.seed w.vars .empty).mapError .expression
      else .error (.packNotLoaded w.name pack e.resolver.packIds)
  | none => (e.seed w.vars .empty).mapError .expression

/-- Runs a workflow. A workflow that cannot be run leaves the world as it was. -/
def run (e : Engine β μ) (w : Workflow) (world : World β) (memory : μ) :
    Except RunError WorkflowResult × World β × μ :=
  match e.prepare w with
  | .error error => (.error error, world, memory)
  | .ok context =>
      let (r, scene) := e.runBlocks w ⟨world, context, memory⟩
      (.ok r, scene.world, scene.memory)

def shutdown (e : Engine β μ) (world : World β) : Option (Except BrowserError Unit) × World β :=
  let ending := (Dialogue.call .close : Dialogue Unit _).run e.browser none world ()
  (ending.result, ending.world)

end Engine
end Journey
