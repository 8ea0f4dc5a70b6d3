import Journey.Value

/-!
Workflows: a workflow owns its phases and its setup, recovery and teardown blocks, and each of them
owns its steps in the order of the text. Every part knows the line it came from.
-/

namespace Journey

/-- A line of a file, counted from one. -/
structure SourceRef where
  file : String
  line : Nat
  deriving DecidableEq, Inhabited

def SourceRef.text (at_ : SourceRef) : String := s!"{at_.file}:{at_.line}"

/-- How a phase judges the failures of its steps: at once, or by their number at the end. -/
inductive PhaseMode where
  | strict
  | recover
  deriving DecidableEq, Inhabited

def PhaseMode.name : PhaseMode → String
  | .strict => "strict"
  | .recover => "recover"

def PhaseMode.ofName? : String → Option PhaseMode
  | "strict" => some .strict
  | "recover" => some .recover
  | _ => none

inductive PhaseFailurePolicy where
  | abort
  | continue
  deriving DecidableEq, Inhabited

def PhaseFailurePolicy.name : PhaseFailurePolicy → String
  | .abort => "abort"
  | .continue => "continue"

def PhaseFailurePolicy.ofName? : String → Option PhaseFailurePolicy
  | "abort" => some .abort
  | "continue" => some .continue
  | _ => none

inductive PolicyError where
  | phaseMode (word : String)
  | phaseFailure (word : String)
  deriving DecidableEq

def PolicyError.message : PolicyError → String
  | .phaseMode word => s!"Unknown phase mode '{word}'. Expected 'strict' or 'recover'"
  | .phaseFailure word => s!"Unknown phase failure policy '{word}'. Expected 'abort' or 'continue'"

def PhaseMode.parse (word : String) : Except PolicyError PhaseMode :=
  match PhaseMode.ofName? word with
  | some mode => .ok mode
  | none => .error (.phaseMode word)

def PhaseFailurePolicy.parse (word : String) : Except PolicyError PhaseFailurePolicy :=
  match PhaseFailurePolicy.ofName? word with
  | some policy => .ok policy
  | none => .error (.phaseFailure word)

/-- How a step is carried out: by a primitive, by expansion, or by a plugin. -/
inductive StepKind where
  | atomic
  | semantic
  | plugin (name : String)
  deriving DecidableEq, Inhabited

def actionLabel (keyword : String) : Option String → String
  | some target => s!"{keyword} -> {target}"
  | none => keyword

/-- One compiled step. Placeholders in parameters and target are not resolved yet; `placeholders`
lists the names they use, parameters first. -/
structure Step where
  kind : StepKind
  keyword : String
  params : Params
  target : Option String
  id : Option String
  timeout : Option String
  retry : Option Nat
  optional : Bool
  placeholders : List String
  source : SourceRef
  deriving DecidableEq

namespace Step

def label (s : Step) : String := actionLabel s.keyword s.target

def isSemantic (s : Step) : Bool := s.kind == .semantic

end Step

structure Phase where
  name : String
  mode : Option PhaseMode
  tolerance : Option Nat
  steps : List Step
  source : SourceRef
  deriving DecidableEq

structure Workflow where
  name : String
  tags : List String
  locatorPack : Option String
  vars : Params
  successCriteria : Option String
  onPhaseFailure : Option PhaseFailurePolicy
  setup : List Step
  phases : List Phase
  recovery : List Step
  teardown : List Step
  source : SourceRef
  digest : String
  deriving DecidableEq

namespace Workflow

/-- Every step in the order of setup, phases, recovery and teardown. -/
def steps (w : Workflow) : List Step :=
  w.setup ++ w.phases.flatMap Phase.steps ++ w.recovery ++ w.teardown

def phase? (w : Workflow) (name : String) : Option Phase := w.phases.find? (·.name == name)

def hasTag (w : Workflow) (tag : String) : Bool := w.tags.contains tag

end Workflow
end Journey
