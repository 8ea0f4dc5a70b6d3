import Journey.Node
import Journey.Workflow

/-!
Workflows as records: how their parts are written as data and read from a document.
-/

namespace Journey

def SourceRef.toValue (at_ : SourceRef) : Value :=
  .ofFields [("file", .str at_.file), ("line", .int at_.line)]

def SourceRef.ofNode? (n : Node) : Option SourceRef := do
  let r ← n.fieldsOf? ["file", "line"]
  return ⟨← r.required "file" Node.text?, ← r.required "line" Node.nat64?⟩

def PhaseMode.ofNode? (n : Node) : Option PhaseMode :=
  n.variant? [("strict", .strict), ("recover", .recover)]

def PhaseFailurePolicy.ofNode? (n : Node) : Option PhaseFailurePolicy :=
  n.variant? [("abort", .abort), ("continue", .continue)]

def StepKind.toValue : StepKind → Value
  | .atomic => .ofFields [("kind", .str "atomic")]
  | .semantic => .ofFields [("kind", .str "semantic")]
  | .plugin name => .ofFields [("kind", .str "plugin"), ("plugin", .str name)]

def StepKind.ofName? (plugin? : Option String) : String → Option StepKind
  | "atomic" => some .atomic
  | "semantic" => some .semantic
  | "plugin" => plugin?.map .plugin
  | _ => none

def StepKind.ofNode? : Node → Option StepKind
  | .map entries => do
      let r ← (Node.map entries).fieldsOf? ["kind", "plugin"]
      let name ← r.required "kind" Node.text?
      StepKind.ofName? (r.required "plugin" Node.text?) name
  | .seq _ [name] => name.text?.bind (StepKind.ofName? none)
  | .seq _ [name, field] => do
      match ← StepKind.ofName? field.text? (← name.text?) with
      | .plugin name => some (.plugin name)
      | .atomic | .semantic => none
  | _ => none

def Step.toValue (s : Step) : Value :=
  .ofFields [
    ("kind", s.kind.toValue), ("keyword", .str s.keyword), ("params", .obj s.params),
    ("target", .ofOption .str s.target), ("id", .ofOption .str s.id),
    ("timeout", .ofOption .str s.timeout), ("retry", .ofOption (.int ·) s.retry),
    ("optional", .bool s.optional), ("placeholders", .ofStrings s.placeholders),
    ("source", s.source.toValue)]

def Step.ofNode? (n : Node) : Option Step := do
  let r ← n.fieldsOf? ["kind", "keyword", "params", "target", "id", "timeout", "retry", "optional",
    "placeholders", "source"]
  return {
    kind := ← r.required "kind" StepKind.ofNode?
    keyword := ← r.required "keyword" Node.text?
    params := ← r.required "params" (Node.dict? (Node.value? Node.maxLevels))
    target := ← r.nullable "target" Node.text?
    id := ← r.nullable "id" Node.text?
    timeout := ← r.nullable "timeout" Node.text?
    retry := ← r.nullable "retry" Node.nat32?
    optional := ← r.required "optional" Node.bool?
    placeholders := ← r.required "placeholders" (Node.list? Node.text?)
    source := ← r.required "source" SourceRef.ofNode? }

def Phase.toValue (p : Phase) : Value :=
  .ofFields [
    ("name", .str p.name), ("mode", .ofOption (fun m => .str m.name) p.mode),
    ("tolerance", .ofOption (.int ·) p.tolerance), ("steps", .arr (p.steps.map Step.toValue)),
    ("source", p.source.toValue)]

def Phase.ofNode? (n : Node) : Option Phase := do
  let r ← n.fieldsOf? ["name", "mode", "tolerance", "steps", "source"]
  return {
    name := ← r.required "name" Node.text?
    mode := ← r.nullable "mode" PhaseMode.ofNode?
    tolerance := ← r.nullable "tolerance" Node.nat64?
    steps := ← r.required "steps" (Node.list? Step.ofNode?)
    source := ← r.required "source" SourceRef.ofNode? }

def Workflow.toValue (w : Workflow) : Value :=
  .ofFields [
    ("name", .str w.name), ("tags", .ofStrings w.tags),
    ("locator_pack", .ofOption .str w.locatorPack), ("variables", .obj w.vars),
    ("success_criteria", .ofOption .str w.successCriteria),
    ("on_phase_failure", .ofOption (fun p => .str p.name) w.onPhaseFailure),
    ("setup", .arr (w.setup.map Step.toValue)), ("phases", .arr (w.phases.map Phase.toValue)),
    ("recovery", .arr (w.recovery.map Step.toValue)),
    ("teardown", .arr (w.teardown.map Step.toValue)), ("source", w.source.toValue),
    ("digest", .str w.digest)]

def Workflow.ofNode? (n : Node) : Option Workflow := do
  let r ← n.fieldsOf? ["name", "tags", "locator_pack", "variables", "success_criteria",
    "on_phase_failure", "setup", "phases", "recovery", "teardown", "source", "digest"]
  return {
    name := ← r.required "name" Node.text?
    tags := ← r.defaulted "tags" [] (Node.list? Node.text?)
    locatorPack := ← r.nullable "locator_pack" Node.text?
    vars := ← r.defaulted "variables" [] (Node.dict? (Node.value? Node.maxLevels))
    successCriteria := ← r.nullable "success_criteria" Node.text?
    onPhaseFailure := ← r.nullable "on_phase_failure" PhaseFailurePolicy.ofNode?
    setup := ← r.defaulted "setup" [] (Node.list? Step.ofNode?)
    phases := ← r.required "phases" (Node.list? Phase.ofNode?)
    recovery := ← r.defaulted "recovery" [] (Node.list? Step.ofNode?)
    teardown := ← r.defaulted "teardown" [] (Node.list? Step.ofNode?)
    source := ← r.required "source" SourceRef.ofNode?
    digest := ← r.required "digest" Node.text? }

end Journey
