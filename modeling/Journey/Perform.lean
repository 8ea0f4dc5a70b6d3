import Journey.StepError
import Journey.Wait

/-!
The built-in actions. Each checks its input, talks to the browser, and gives outputs or the reason
why it failed; one of them writes to the context instead.
-/

namespace Journey

abbrev Outputs := Dict Value

/-- What an action works with. `limit` bounds the actions that wait. -/
structure ActionInput where
  keyword : String
  target : Option Handle
  params : Params
  limit : Nat
  poll : PollPolicy

namespace ActionInput

def param (input : ActionInput) (name : String) : Except StepError Value :=
  match Dict.find? input.params name with
  | some v => .ok v
  | none => .error (.parameter (.missing input.keyword name))

def paramText (input : ActionInput) (name : String) : Except StepError String :=
  (input.param name).map Value.render

def handle (input : ActionInput) : Except StepError Handle :=
  match input.target with
  | some handle => .ok handle
  | none => .error (.parameter (.noTarget input.keyword))

end ActionInput

namespace Primitive

variable {σ α : Type}

def checked (input : Except StepError α) (next : α → Dialogue σ (Except StepError Outputs)) :
    Dialogue σ (Except StepError Outputs) :=
  match input with
  | .ok a => next a
  | .error e => .done (.error e)

def asking (keyword : String) (call : Call)
    (next : call.Answer → Dialogue σ (Except StepError Outputs)) :
    Dialogue σ (Except StepError Outputs) :=
  .ask call fun
    | .ok answer => next answer
    | .error e => .done (.error (.action keyword e))

def waiting (input : ActionInput) (condition : Condition) :
    Dialogue σ (Except StepError Outputs) :=
  (condition.await input.limit input.poll).bind fun
    | .ok () => .done (.ok [])
    | .error (.timeout _ _) => .done (.error (.timeout input.limit))
    | .error (.browser e) => .done (.error (.action input.keyword e))

def fails (fault : AssertionFault) : Dialogue σ (Except StepError Outputs) :=
  .done (.error (.assertion fault))

def passes : Dialogue σ (Except StepError Outputs) := .done (.ok [])

/-- Equal as values, or equal once both are rendered as text. -/
def looselyEqual (a b : Value) : Bool := a.same b || a.render == b.render

/-- Whether a text holds another, blanks at the ends of both aside. -/
def textHolds (whole part : String) : Bool :=
  Text.contains (Text.trim part.toList) (Text.trim whole.toList)

def browse (p : Primitive) (input : ActionInput) : Dialogue σ (Except StepError Outputs) :=
  match p with
  | .goto =>
      checked (input.paramText "url") fun url =>
        asking input.keyword (.navigate url) fun _ => passes
  | .click =>
      checked input.handle fun handle => asking input.keyword (.click handle) fun _ => passes
  | .fill =>
      checked (input.paramText "value") fun value =>
        checked input.handle fun handle =>
          asking input.keyword (.fill handle value) fun _ => passes
  | .text =>
      checked input.handle fun handle =>
        asking input.keyword (.text handle) fun text => .done (.ok [("text", .str text)])
  | .waitVisible => checked input.handle fun handle => waiting input (.visible handle)
  | .waitHidden =>
      match input.target with
      | some handle => waiting input (.hidden handle)
      | none => passes
  | .waitNavigation => waiting input .navigated
  | .screenshot =>
      asking input.keyword .screenshot fun shot => .done (.ok [("evidence", .str shot)])
  | other => .done (.error (.config (.notBrowserAction other)))

def verify (p : Primitive) (input : ActionInput) : Dialogue σ (Except StepError Outputs) :=
  match p with
  | .assertVisible =>
      checked input.handle fun handle =>
        asking input.keyword (.probe (.visible handle)) fun visible =>
          if visible then passes else fails (.notVisible handle)
  | .assertHidden =>
      match input.target with
      | some handle =>
          asking input.keyword (.probe (.hidden handle)) fun hidden =>
            if hidden then passes else fails (.visible handle)
      | none => passes
  | .assertText =>
      checked (input.paramText "text") fun expected =>
        checked input.handle fun handle =>
          asking input.keyword (.text handle) fun actual =>
            if textHolds actual expected then passes else fails (.textLacks expected actual)
  | .assertUrl =>
      checked (input.paramText "contains") fun part =>
        asking input.keyword .currentUrl fun url =>
          if Text.containsString part url then passes else fails (.urlLacks part url)
  | .assertEquals =>
      checked (input.param "actual") fun actual =>
        checked (input.param "expected") fun expected =>
          if looselyEqual actual expected then passes else fails (.notEqual expected actual)
  | other => .done (.error (.config (.notAssertion other)))

def store (input : ActionInput) : Dialogue Context (Except StepError Outputs) :=
  checked (input.paramText "key") fun key =>
    checked (input.param "value") fun value => .note (·.set key value) passes

def perform (p : Primitive) (input : ActionInput) : Dialogue Context (Except StepError Outputs) :=
  match p with
  | .goto | .click | .fill | .text | .waitVisible | .waitHidden | .waitNavigation | .screenshot =>
      p.browse input
  | .ctxSet => store input
  | .assertVisible | .assertHidden | .assertText | .assertUrl | .assertEquals => p.verify input

end Primitive
end Journey
