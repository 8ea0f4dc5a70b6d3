import Journey.Lint
import Journey.Workflow.Record

/-!
Lint violations written as data.
-/

namespace Journey

def LintViolation.toValue (v : LintViolation) : Value :=
  .ofFields [
    ("rule", .str v.cause.rule.name), ("message", .str v.cause.message),
    ("source", v.source.toValue), ("line", .str v.line)]

end Journey
