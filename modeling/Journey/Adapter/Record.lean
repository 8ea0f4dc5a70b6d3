import Journey.Adapter

/-!
Declared adapters as records.
-/

namespace Journey

def ExpandedStep.toValue (s : ExpandedStep) : Value :=
  .ofFields [
    ("keyword", .str s.keyword), ("target", .ofOption .str s.target), ("params", .obj s.params)]

def StepTemplate.toValue (s : StepTemplate) : Value :=
  .ofFields [
    ("keyword", .str s.keyword), ("target", .ofOption .str s.target), ("params", .obj s.params),
    ("unless", .ofOption .str s.unless_)]

def StepTemplate.ofNode? (n : Node) : Option StepTemplate := do
  let r ← n.fieldsOf? ["keyword", "target", "params", "unless"]
  return {
    keyword := ← r.required "keyword" Node.text?
    target := ← r.optional "target" Node.text?
    params := ← r.defaulted "params" [] (Node.dict? (Node.value? (Node.maxLevels - 5)))
    unless_ := ← r.optional "unless" Node.text? }

def ActionTemplate.toValue (t : ActionTemplate) : Value :=
  .ofFields [("params", .ofStrings t.params), ("steps", .arr (t.steps.map StepTemplate.toValue))]

def ActionTemplate.ofNode? (n : Node) : Option ActionTemplate := do
  let r ← n.fieldsOf? ["params", "steps"]
  return {
    params := ← r.defaulted "params" [] (Node.list? Node.text?)
    steps := ← r.required "steps" (Node.list? StepTemplate.ofNode?) }

def DeclaredAdapter.toValue (d : DeclaredAdapter) : Value :=
  .ofFields [
    ("name", .str d.name), ("pack", .ofOption .str d.pack),
    ("locators", .obj (d.locators.map fun (k, s) => (k, s.toValue))),
    ("actions", .obj (d.actions.map fun (k, t) => (k, t.toValue)))]

def DeclaredAdapter.ofNode? (n : Node) : Option DeclaredAdapter := do
  let r ← n.fieldsOf? ["name", "pack", "locators", "actions"]
  return {
    name := ← r.required "name" Node.text?
    pack := ← r.optional "pack" Node.text?
    locators := ← r.defaulted "locators" [] (Node.dict? LocatorSpec.ofNode?)
    actions := ← r.defaulted "actions" [] (Node.dict? ActionTemplate.ofNode?) }

end Journey
