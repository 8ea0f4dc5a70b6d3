import Journey.Context
import Journey.Workflow.Record

/-!
Contexts and recorded errors as records.
-/

namespace Journey

def ErrorKind.ofNode? (n : Node) : Option ErrorKind :=
  n.variant? (ErrorKind.all.map fun kind => (kind.name, kind))

def RecordedError.toValue (e : RecordedError) : Value :=
  .ofFields [
    ("kind", .str e.kind.name), ("message", .str e.message), ("keyword", .str e.keyword),
    ("source", .ofOption SourceRef.toValue e.source)]

def RecordedError.ofNode? (n : Node) : Option RecordedError := do
  let r ← n.fieldsOf? ["kind", "message", "keyword", "source"]
  return {
    kind := ← r.required "kind" ErrorKind.ofNode?
    message := ← r.required "message" Node.text?
    keyword := ← r.required "keyword" Node.text?
    source := ← r.nullable "source" SourceRef.ofNode? }

def LocatorMetrics.toValue (m : LocatorMetrics) : Value :=
  .ofFields [
    ("primary", .int m.primary), ("secondary", .int m.secondary), ("tertiary", .int m.tertiary),
    ("failures", .int m.failures), ("attempts", .int m.attempts)]

def Context.toValue (c : Context) : Value :=
  .ofFields [
    ("current_phase", .ofOption .str c.phase), ("current_step", .ofOption (.int ·) c.step),
    ("data", .obj c.data), ("last_error", .ofOption RecordedError.toValue c.lastError),
    ("locator_metrics", c.metrics.toValue)]

end Journey
