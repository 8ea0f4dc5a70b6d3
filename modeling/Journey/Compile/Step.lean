import Journey.Compile.Error

/-!
From an action line to a step. Assertions get their prefix, everything but a semantic action must be
in the registry, the reserved parameters become options of the step, and the rest is checked against
the spec of the action.
-/

namespace Journey

/-- What a text is compiled against: the registered actions, the timeout profiles if they are to be
checked, and whether the purity lint comes first. -/
structure Compiler where
  registry : Registry
  profiles : Option (List String)
  lint : Bool

structure StepDraft where
  params : Params
  target : Option String
  id : Option String
  timeout : Option String
  retry : Option Nat
  deriving DecidableEq

namespace StepDraft

def empty : StepDraft := ⟨[], none, none, none, none⟩

def expectName (key : String) : Value → Except CompileFault String
  | .str s => if s.isEmpty then .error (.notAName key (.str s)) else .ok s
  | value => .error (.notAName key value)

/-- A number of attempts, from one to what 32 bits hold. -/
def expectRetry (value : Value) : Except CompileFault Nat :=
  match value.nat? with
  | some n => if 1 ≤ n && n ≤ 4294967295 then .ok n else .error (.badRetry value)
  | none => .error (.badRetry value)

def knownProfile (profiles : Option (List String)) (profile : String) : Bool :=
  match profiles with
  | some names => names.contains profile
  | none => true

/-- Takes one parameter in. A reserved one replaces what was there, any other may come once. -/
def addParam (profiles : Option (List String)) (d : StepDraft) (param : String × Value) :
    Except CompileFault StepDraft :=
  let (key, value) := param
  match key with
  | "target" => (expectName key value).map fun target => { d with target := some target }
  | "id" => (expectName key value).map fun id => { d with id := some id }
  | "timeout" =>
      match expectName key value with
      | .error e => .error e
      | .ok profile =>
          if knownProfile profiles profile then .ok { d with timeout := some profile }
          else .error (.unknownProfile profile)
  | "retry" => (expectRetry value).map fun retry => { d with retry := some retry }
  | _ =>
      if Dict.contains d.params key then .error (.parameterTwice key)
      else .ok { d with params := Dict.insert key value d.params }

end StepDraft

namespace Compiler

def fullKeyword (action : ActionLine) : String :=
  match action.verb with
  | .assert =>
      if Text.startsWith "assert.".toList action.keyword.toList then action.keyword
      else "assert." ++ action.keyword
  | .step | .do_ => action.keyword

/-- The spec behind an action line; semantic actions have none yet. -/
def specFor (c : Compiler) (action : ActionLine) : Except CompileFault (Option ActionSpec) :=
  match action.verb with
  | .do_ => .ok none
  | .step | .assert =>
      match c.registry.get (fullKeyword action) with
      | .ok spec => .ok (some spec)
      | .error e => .error (.registry e)

def kindOf : Option ActionSpec → StepKind
  | none => .semantic
  | some spec =>
      match spec.plugin? with
      | some plugin => .plugin plugin
      | none => .atomic

def checkSpec (keyword : String) (spec : ActionSpec) (d : StepDraft) : Except CompileFault Unit :=
  if spec.requiresTarget && d.target.isNone then .error (.targetMissing keyword)
  else if !spec.acceptsTarget && d.target.isSome then .error (.targetRefused keyword)
  else
    match spec.requiredParams.find? fun param => !Dict.contains d.params param with
    | some param => .error (.parameterMissing keyword param)
    | none => .ok ()

def checkFlags (flags : List String) : Except CompileFault Unit :=
  match flags.find? (· != "optional") with
  | some flag => .error (.unexpectedToken flag)
  | none => .ok ()

def checkAgainst (keyword : String) (d : StepDraft) : Option ActionSpec → Except CompileFault Unit
  | none => .ok ()
  | some spec => checkSpec keyword spec d

/-- The placeholders of a step: those of its parameters in key order, then those of its target. -/
def placeholdersOf (params : Params) (target : Option String) : List String :=
  Placeholder.fieldNames params ++ target.toList.flatMap Placeholder.names

def compileStep (c : Compiler) (action : ActionLine) (source : SourceRef) :
    Except CompileFault Step := do
  let spec ← c.specFor action
  let d ← action.params.foldlM (StepDraft.addParam c.profiles) .empty
  checkFlags action.flags
  checkAgainst (fullKeyword action) d spec
  return {
    kind := kindOf spec
    keyword := fullKeyword action
    params := d.params
    target := d.target
    id := d.id
    timeout := d.timeout
    retry := d.retry
    optional := !action.flags.isEmpty
    placeholders := placeholdersOf d.params d.target
    source := source }

end Compiler
end Journey
