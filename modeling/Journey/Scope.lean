import Journey.Context
import Journey.Placeholder
import Journey.Value.Printer

/-!
Scopes: where the placeholders of a step get their values. The parameters of an enclosing composite
step come first, then the context, then the template of static values and environment variables. A
value that is one placeholder keeps the type of what it names; placeholders in longer text are
rendered as text, once, and what they bring in is not looked at again.
-/

namespace Journey

/-- Static values and environment variables, the latter under `env`. -/
structure Template where
  values : Dict Value
  env : Dict String
  deriving DecidableEq

namespace Template

def empty : Template := ⟨[], []⟩

def set (t : Template) (key : String) (value : Value) : Template :=
  { t with values := Dict.insert key value t.values }

def setEnv (t : Template) (key value : String) : Template :=
  { t with env := Dict.insert key value t.env }

/-- A path that begins with `env` and a point names an environment variable and nothing else. -/
def lookup (t : Template) (path : String) : Option Value :=
  match Text.after? "env.".toList path.toList with
  | some name => (Dict.find? t.env (String.ofList name)).map .str
  | none => Path.lookup t.values path

end Template

inductive ExpressionError where
  | unknownVariable (name : String)
  deriving DecidableEq

def ExpressionError.message : ExpressionError → String
  | .unknownVariable name => s!"Unknown variable: {name}"

structure Scope where
  params : Option Params
  context : Context
  template : Template

namespace Scope

def lookup (s : Scope) (path : String) : Option Value :=
  ((s.params.bind fun params => Path.lookup params path) <|> s.context.lookup path) <|>
    s.template.lookup path

def value (s : Scope) (name : String) : Except ExpressionError Value :=
  match s.lookup name with
  | some v => .ok v
  | none => .error (.unknownVariable name)

def fill (s : Scope) : List Placeholder.Piece → Except ExpressionError (List Char)
  | [] => .ok []
  | .char c :: rest => (s.fill rest).map (c :: ·)
  | .hole name :: rest =>
      match s.value name with
      | .error e => .error e
      | .ok v => (s.fill rest).map (v.render.toList ++ ·)

def interpolate (s : Scope) (text : String) : Except ExpressionError String :=
  (s.fill (Placeholder.pieces text.toList)).map String.ofList

/-- The value of a text: that of its sole placeholder, or the text with placeholders rendered. -/
def resolveText (s : Scope) (text : String) : Except ExpressionError Value :=
  match Placeholder.sole? text with
  | some name => s.value name
  | none => (s.interpolate text).map .str

mutual
def resolve (s : Scope) : Value → Except ExpressionError Value
  | .str text => s.resolveText text
  | .arr items => (s.resolveItems items).map .arr
  | .obj fields => (s.resolveFields fields).map .obj
  | .null => .ok .null
  | .bool b => .ok (.bool b)
  | .int i => .ok (.int i)
  | .float x => .ok (.float x)

def resolveItems (s : Scope) : List Value → Except ExpressionError (List Value)
  | [] => .ok []
  | v :: vs =>
      match s.resolve v with
      | .error e => .error e
      | .ok v => (s.resolveItems vs).map (v :: ·)

def resolveFields (s : Scope) :
    List (String × Value) → Except ExpressionError (List (String × Value))
  | [] => .ok []
  | (k, v) :: vs =>
      match s.resolve v with
      | .error e => .error e
      | .ok v => (s.resolveFields vs).map ((k, v) :: ·)
end

def resolveParams (s : Scope) (params : Params) : Except ExpressionError Params :=
  s.resolveFields params

end Scope
end Journey
