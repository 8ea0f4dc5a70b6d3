import Journey.Compile.Step
import Journey.Text.Digest

/-!
The compiler of workflow text. Lines are fed one after another to a workflow under construction,
which has at most one phase or block open; the first line that does not fit ends the compilation.
A finished workflow carries the digest of its own lines.
-/

namespace Journey

inductive BlockName where
  | setup
  | recovery
  | teardown
  deriving DecidableEq

def BlockName.text : BlockName → String
  | .setup => "setup"
  | .recovery => "recovery"
  | .teardown => "teardown"

def BlockName.all : List BlockName := [.setup, .recovery, .teardown]

inductive OpenBlock where
  | phase (phase : Phase)
  | block (name : BlockName) (steps : List Step) (source : SourceRef)
  deriving DecidableEq

namespace OpenBlock

def closingWord : OpenBlock → String
  | phase _ => "phase"
  | block name _ _ => name.text

def name : OpenBlock → String
  | phase p => p.name
  | block name _ _ => name.text

def addStep (step : Step) : OpenBlock → OpenBlock
  | phase p => .phase { p with steps := p.steps ++ [step] }
  | block name steps source => .block name (steps ++ [step]) source

def unclosed (close : SourceRef) : OpenBlock → CompileError
  | phase p => ⟨p.source, .unclosedPhase p.name close⟩
  | block name _ source => ⟨source, .unclosedBlock name.text close⟩

end OpenBlock

/-- A workflow under construction: its lines so far, latest first, the blocks it has had, and the
one that is open. -/
structure Draft where
  workflow : Workflow
  lines : List String
  seen : List BlockName
  opened : Option OpenBlock
  deriving DecidableEq

/-- The text without one pair of quotes around it, and without blanks around them. -/
def unquote (cs : List Char) : List Char :=
  match Text.trim cs with
  | '"' :: rest =>
      match rest.reverse with
      | '"' :: inner => inner.reverse
      | _ => '"' :: rest
  | cs => cs

inductive MetaKey where
  | workflow
  | tags
  | locators
  | success
  | onPhaseFailure
  | phase
  deriving DecidableEq

def MetaKey.all : List (String × MetaKey) := [
  ("workflow:", .workflow), ("tags:", .tags), ("locators:", .locators), ("success:", .success),
  ("on_phase_failure:", .onPhaseFailure), ("phase:", .phase)]

def MetaKey.parse (line : List Char) : Option (MetaKey × List Char) :=
  MetaKey.all.findSome? fun (word, key) =>
    (Text.after? word.toList line).map fun rest => (key, Text.trim rest)

structure PhaseDraft where
  name : List String
  mode : Option PhaseMode
  tolerance : Option Nat
  deriving DecidableEq

namespace PhaseDraft

def addToken (d : PhaseDraft) : Token → Except CompileFault PhaseDraft
  | .word word =>
      if d.mode.isSome || d.tolerance.isSome then .error (.wordAfterOptions word)
      else .ok { d with name := d.name ++ [word] }
  | .pair key value =>
      if key = "mode" then
        match PhaseMode.parse (value.text?.getD "") with
        | .ok mode => .ok { d with mode := some mode }
        | .error e => .error (.policy e)
      else if key = "tolerance" then
        match value.nat? with
        | some n => .ok { d with tolerance := some n }
        | none => .error (.badTolerance value)
      else .error (.unknownPhaseOption key)

def finish (d : PhaseDraft) (source : SourceRef) : Except CompileFault Phase :=
  let name := " ".intercalate d.name
  if name.isEmpty then .error .noPhaseName
  else if d.tolerance.isSome && d.mode != some .recover then .error .toleranceWithoutRecover
  else .ok ⟨name, d.mode, d.tolerance, [], source⟩

end PhaseDraft

/-- A phase from the text after `phase:`: a name of one or more words, then its options. -/
def Phase.parseHeader (text : List Char) (source : SourceRef) : Except CompileFault Phase :=
  match Token.list text with
  | .error e => .error (.token e)
  | .ok tokens =>
      match tokens.foldlM PhaseDraft.addToken ⟨[], none, none⟩ with
      | .error e => .error e
      | .ok d => d.finish source

def parseTags (cs : List Char) : List String :=
  ((Text.splitOn ',' cs).map fun tag => String.ofList (Text.trim tag)).filter fun tag =>
    !tag.isEmpty

namespace Draft

def begin (name : String) (source : SourceRef) (raw : String) : Draft where
  workflow := {
    name := name, tags := [], locatorPack := none, vars := [], successCriteria := none,
    onPhaseFailure := none, setup := [], phases := [], recovery := [], teardown := [],
    source := source, digest := "" }
  lines := [raw]
  seen := []
  opened := none

def keepLine (d : Draft) (raw : String) : Draft := { d with lines := raw :: d.lines }

def addStep (d : Draft) (step : Step) : Except CompileFault Draft :=
  match d.opened with
  | some opened => .ok { d with opened := some (opened.addStep step) }
  | none => .error .actionOutside

def fillBlock (d : Draft) (name : BlockName) (steps : List Step) : Draft :=
  match name with
  | .setup => { d with workflow := { d.workflow with setup := steps }, opened := none }
  | .recovery => { d with workflow := { d.workflow with recovery := steps }, opened := none }
  | .teardown => { d with workflow := { d.workflow with teardown := steps }, opened := none }

def close (d : Draft) (word : String) (source : SourceRef) : Except CompileError Draft :=
  match d.opened with
  | none => .error ⟨source, .endWithoutBlock word⟩
  | some opened =>
      if word = opened.closingWord then
        match opened with
        | .phase phase =>
            if phase.steps.isEmpty then .error ⟨phase.source, .emptyPhase phase.name⟩
            else .ok { d with
              workflow := { d.workflow with phases := d.workflow.phases ++ [phase] }
              opened := none }
        | .block name steps _ => .ok (d.fillBlock name steps)
      else .error ⟨source, .wrongEnd word opened.closingWord⟩

def openBlock (d : Draft) (name : BlockName) (source : SourceRef) : Except CompileFault Draft :=
  if d.seen.contains name then .error (.duplicateBlock name.text)
  else .ok { d with seen := name :: d.seen, opened := some (.block name [] source) }

def declare (d : Draft) (name : String) (value : Value) : Except CompileFault Draft :=
  if Dict.contains d.workflow.vars name then .error (.duplicateVariable name)
  else .ok { d with
    workflow := { d.workflow with vars := Dict.insert name value d.workflow.vars } }

def addMeta (d : Draft) (key : MetaKey) (value : List Char) (source : SourceRef) :
    Except CompileFault Draft :=
  match key with
  | .workflow => .error .nestedWorkflow
  | .tags => .ok { d with workflow := { d.workflow with tags := parseTags value } }
  | .locators =>
      .ok { d with
        workflow := { d.workflow with locatorPack := some (String.ofList (unquote value)) } }
  | .success =>
      .ok { d with
        workflow := { d.workflow with successCriteria := some (String.ofList (unquote value)) } }
  | .onPhaseFailure =>
      match PhaseFailurePolicy.parse (String.ofList value) with
      | .ok policy =>
          .ok { d with workflow := { d.workflow with onPhaseFailure := some policy } }
      | .error e => .error (.policy e)
  | .phase =>
      match Phase.parseHeader value source with
      | .error e => .error e
      | .ok phase =>
          if d.workflow.phases.any fun p => p.name == phase.name then
            .error (.duplicatePhase phase.name)
          else .ok { d with opened := some (.phase phase) }

def addStatement (d : Draft) (line : List Char) (source : SourceRef) : Except CompileFault Draft :=
  match BlockName.all.find? fun name => line = (name.text ++ ":").toList with
  | some name => d.openBlock name source
  | none =>
      match Variable.parseLine line with
      | some (_, .error e) => .error (.token e)
      | some (name, .ok value) => d.declare name value
      | none =>
          match MetaKey.parse line with
          | some (key, value) => d.addMeta key value source
          | none => .error (.unrecognized (String.ofList line))

def addLine (c : Compiler) (d : Draft) (line : List Char) (source : SourceRef) :
    Except CompileError Draft :=
  let at_ (r : Except CompileFault Draft) : Except CompileError Draft :=
    r.mapError fun fault => ⟨source, fault⟩
  match ActionLine.parse line with
  | .error e => .error ⟨source, .token e⟩
  | .ok (some action) =>
      match c.compileStep action source with
      | .error fault => .error ⟨source, fault⟩
      | .ok step => at_ (d.addStep step)
  | .ok none =>
      match Text.after? "end ".toList line with
      | some word => d.close (String.ofList (Text.trim word)) source
      | none =>
          match d.opened with
          | some opened => .error ⟨source, .unexpectedInside opened.name (String.ofList line)⟩
          | none => at_ (d.addStatement line source)

def text (d : Draft) : String := "\n".intercalate d.lines.reverse

def finish (d : Draft) (source : SourceRef) : Except CompileError Workflow :=
  match d.opened with
  | some opened => .error (opened.unclosed source)
  | none =>
      if d.workflow.phases.isEmpty then .error ⟨d.workflow.source, .noPhases d.workflow.name⟩
      else .ok { d.workflow with digest := Text.digest d.text }

end Draft

structure Progress where
  finished : List Workflow
  draft : Option Draft
  deriving DecidableEq

namespace Progress

def begin : Progress := ⟨[], none⟩

def startWorkflow (p : Progress) (line : List Char) (raw : String) (source : SourceRef) :
    Except CompileError Progress :=
  match MetaKey.parse line with
  | some (.workflow, value) =>
      let name := String.ofList (unquote value)
      if name.isEmpty then .error ⟨source, .noWorkflowName⟩
      else .ok { p with draft := some (.begin name source raw) }
  | _ => .error ⟨source, .outsideWorkflow (String.ofList line)⟩

def isIgnored (line : List Char) : Bool :=
  match line with
  | [] => true
  | c :: _ => c == '#'

def feed (c : Compiler) (p : Progress) (raw : List Char) (source : SourceRef) :
    Except CompileError Progress :=
  let line := Text.trim raw
  let draft := p.draft.map fun d => d.keepLine (String.ofList raw)
  if isIgnored line then .ok ⟨p.finished, draft⟩
  else if line = "end workflow".toList then
    match draft with
    | none => .error ⟨source, .strayEnd⟩
    | some d => (d.finish source).map fun w => ⟨p.finished ++ [w], none⟩
  else
    match draft with
    | none => p.startWorkflow line (String.ofList raw) source
    | some d => (d.addLine c line source).map fun d => ⟨p.finished, some d⟩

def feedAll (c : Compiler) (file : String) :
    (n : Nat) → List (List Char) → Progress → Except CompileError Progress
  | _, [], p => .ok p
  | n, raw :: rest, p =>
      match p.feed c raw ⟨file, n⟩ with
      | .error e => .error e
      | .ok p => feedAll c file (n + 1) rest p

def finish (p : Progress) : Except CompileError (List Workflow) :=
  match p.draft with
  | none => .ok p.finished
  | some d => .error ⟨d.workflow.source, .unfinishedWorkflow d.workflow.name⟩

end Progress

namespace Compiler

def compileLines (c : Compiler) (file : String) (lines : List (List Char)) :
    Except CompileError (List Workflow) :=
  match Progress.feedAll c file 1 lines .begin with
  | .error e => .error e
  | .ok p => p.finish

/-- Compiles every workflow of a text. With the lint on, its first violation comes before any error
of structure. -/
def compileAll (c : Compiler) (text file : String) : Except CompileError (List Workflow) :=
  match if c.lint then (Lint.check text file).head? else none with
  | some violation => .error ⟨violation.source, .impure violation.cause⟩
  | none => c.compileLines file (Text.lines text.toList)

def compile (c : Compiler) (text file : String) : Except CompileError Workflow :=
  match c.compileAll text file with
  | .error e => .error e
  | .ok [] => .error ⟨⟨file, 1⟩, .noWorkflow⟩
  | .ok [w] => .ok w
  | .ok (_ :: second :: rest) => .error ⟨second.source, .severalWorkflows (rest.length + 2)⟩

end Compiler
end Journey
