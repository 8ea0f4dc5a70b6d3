import Journey.Compile
import Journey.Proofs.Except

/-!
What one line can do to a workflow under construction, case by case with all that it requires. Whatever
is to hold of every compiled workflow is derived from these cases, and never from the compiler itself.
-/

namespace Journey

namespace Draft

inductive Closes (d : Draft) (word : String) : Draft → Prop
  | phase {phase : Phase} (inside : d.opened = some (.phase phase)) (named : word = "phase")
      (filled : phase.steps.isEmpty = false) :
      Closes d word { d with
        workflow := { d.workflow with phases := d.workflow.phases ++ [phase] }, opened := none }
  | block {name : BlockName} {steps : List Step} {at_ : SourceRef}
      (inside : d.opened = some (.block name steps at_)) (named : word = name.text) :
      Closes d word (d.fillBlock name steps)

theorem closes_of_close {d d' : Draft} {word : String} {source : SourceRef}
    (h : d.close word source = .ok d') : d.Closes word d' := by
  simp only [close] at h
  cases inside : d.opened with
  | none =>
      rw [inside] at h
      cases h
  | some opened =>
      rw [inside] at h
      dsimp only at h
      split at h
      case isFalse => cases h
      case isTrue named =>
        cases opened with
        | phase phase =>
            dsimp only at h
            split at h
            case isTrue => cases h
            case isFalse filled =>
              obtain rfl := Except.ok.inj h
              exact .phase inside named (by simpa using filled)
        | block name steps at_ =>
            obtain rfl := Except.ok.inj h
            exact .block inside named

/-- A header alone makes a phase without steps, which knows the line. -/
theorem bare_of_parseHeader {text : List Char} {source : SourceRef} {phase : Phase}
    (h : Phase.parseHeader text source = .ok phase) : phase.steps = [] ∧ phase.source = source := by
  simp only [Phase.parseHeader] at h
  split at h
  case h_1 => cases h
  case h_2 =>
    split at h
    case h_1 => cases h
    case h_2 =>
      simp only [PhaseDraft.finish] at h
      split at h
      case isTrue => cases h
      case isFalse =>
        split at h
        case isTrue => cases h
        case isFalse =>
          obtain rfl := Except.ok.inj h
          exact ⟨rfl, rfl⟩

/-- A line outside of any block opens one, declares a variable, or has a keyword and a colon. -/
inductive States (d : Draft) (line : List Char) (source : SourceRef) : Draft → Prop
  | block {name : BlockName} (read : line = (name.text ++ ":").toList)
      (fresh : d.seen.contains name = false) :
      States d line source { d with seen := name :: d.seen, opened := some (.block name [] source) }
  | declared {name : String} {value : Value} (read : Variable.parseLine line = some (name, .ok value))
      (fresh : Dict.contains d.workflow.vars name = false) :
      States d line source { d with
        workflow := { d.workflow with vars := Dict.insert name value d.workflow.vars } }
  | tags {value : List Char} (read : MetaKey.parse line = some (.tags, value)) :
      States d line source { d with workflow := { d.workflow with tags := parseTags value } }
  | locators {value : List Char} (read : MetaKey.parse line = some (.locators, value)) :
      States d line source { d with
        workflow := { d.workflow with locatorPack := some (String.ofList (unquote value)) } }
  | success {value : List Char} (read : MetaKey.parse line = some (.success, value)) :
      States d line source { d with
        workflow := { d.workflow with successCriteria := some (String.ofList (unquote value)) } }
  | failurePolicy {value : List Char} {policy : PhaseFailurePolicy}
      (read : MetaKey.parse line = some (.onPhaseFailure, value))
      (known : PhaseFailurePolicy.parse (String.ofList value) = .ok policy) :
      States d line source { d with workflow := { d.workflow with onPhaseFailure := some policy } }
  | phase {value : List Char} {phase : Phase} (read : MetaKey.parse line = some (.phase, value))
      (header : Phase.parseHeader value source = .ok phase)
      (fresh : (d.workflow.phases.any fun p => p.name == phase.name) = false) :
      States d line source { d with opened := some (.phase phase) }

theorem states_of_addMeta {d d' : Draft} {line value : List Char} {key : MetaKey}
    {source : SourceRef} (read : MetaKey.parse line = some (key, value))
    (h : d.addMeta key value source = .ok d') : d.States line source d' := by
  cases key with
  | workflow => cases h
  | tags =>
      obtain rfl := Except.ok.inj h
      exact .tags read
  | locators =>
      obtain rfl := Except.ok.inj h
      exact .locators read
  | success =>
      obtain rfl := Except.ok.inj h
      exact .success read
  | onPhaseFailure =>
      simp only [addMeta] at h
      split at h
      case h_1 known =>
        obtain rfl := Except.ok.inj h
        exact .failurePolicy read known
      case h_2 => cases h
  | phase =>
      simp only [addMeta] at h
      split at h
      case h_1 => cases h
      case h_2 header =>
        split at h
        case isTrue => cases h
        case isFalse fresh =>
          obtain rfl := Except.ok.inj h
          exact .phase read header (by simpa using fresh)

theorem states_of_addStatement {d d' : Draft} {line : List Char} {source : SourceRef}
    (h : d.addStatement line source = .ok d') : d.States line source d' := by
  simp only [addStatement] at h
  -- The compiler looks for a block first, then for a variable, and last for a colon.
  cases found : BlockName.all.find? fun name => line = (name.text ++ ":").toList with
  | some name =>
      have read := List.find?_some found
      simp only [found, openBlock] at h
      split at h
      case isTrue => cases h
      case isFalse fresh =>
        obtain rfl := Except.ok.inj h
        exact .block (by simpa using read) (by simpa using fresh)
  | none =>
      simp only [found] at h
      split at h
      case h_1 => cases h
      case h_2 read =>
        simp only [declare] at h
        split at h
        case isTrue => cases h
        case isFalse fresh =>
          obtain rfl := Except.ok.inj h
          exact .declared read (by simpa using fresh)
      case h_3 =>
        split at h
        case h_1 read => exact states_of_addMeta read h
        case h_2 => cases h

/-- A line inside a workflow is an action of the open block, its end, or a line outside of blocks. -/
inductive Takes (c : Compiler) (d : Draft) (line : List Char) (source : SourceRef) : Draft → Prop
  | action {action : ActionLine} {step : Step} {opened : OpenBlock}
      (read : ActionLine.parse line = .ok (some action))
      (compiled : c.compileStep action source = .ok step) (inside : d.opened = some opened) :
      Takes c d line source { d with opened := some (opened.addStep step) }
  | ending {word : List Char} {d' : Draft} (read : ActionLine.parse line = .ok none)
      (ends : Text.after? "end ".toList line = some word)
      (closes : d.Closes (String.ofList (Text.trim word)) d') : Takes c d line source d'
  | statement {d' : Draft} (read : ActionLine.parse line = .ok none)
      (noEnd : Text.after? "end ".toList line = none) (outside : d.opened = none)
      (states : d.States line source d') : Takes c d line source d'

theorem takes_of_addLine {c : Compiler} {d d' : Draft} {line : List Char} {source : SourceRef}
    (h : d.addLine c line source = .ok d') : d.Takes c line source d' := by
  simp only [addLine] at h
  split at h
  case h_1 => cases h
  case h_2 read =>
    split at h
    case h_1 => cases h
    case h_2 compiled =>
      have added := Except.ok_of_mapError h
      simp only [addStep] at added
      split at added
      case h_1 inside =>
        obtain rfl := Except.ok.inj added
        exact .action read compiled inside
      case h_2 => cases added
  case h_3 read =>
    split at h
    case h_1 ends => exact .ending read ends (closes_of_close h)
    case h_2 noEnd =>
      split at h
      case h_1 => cases h
      case h_2 outside =>
        exact .statement read noEnd outside (states_of_addStatement (Except.ok_of_mapError h))

end Draft

namespace Progress

/-- What one line of a text does to the workflows read so far and the one under construction. -/
inductive Feeds (c : Compiler) (p : Progress) (raw : List Char) (source : SourceRef) :
    Progress → Prop
  | ignored (blank : isIgnored (Text.trim raw) = true) :
      Feeds c p raw source ⟨p.finished, p.draft.map fun d => d.keepLine (String.ofList raw)⟩
  | ended {d : Draft} {w : Workflow} (ends : Text.trim raw = "end workflow".toList)
      (under : p.draft = some d) (done : (d.keepLine (String.ofList raw)).finish source = .ok w) :
      Feeds c p raw source ⟨p.finished ++ [w], none⟩
  | begun {value : List Char} (outside : p.draft = none)
      (read : MetaKey.parse (Text.trim raw) = some (.workflow, value))
      (named : (String.ofList (unquote value)).isEmpty = false) :
      Feeds c p raw source
        ⟨p.finished, some (.begin (String.ofList (unquote value)) source (String.ofList raw))⟩
  | taken {d d' : Draft} (under : p.draft = some d)
      (takes : (d.keepLine (String.ofList raw)).Takes c (Text.trim raw) source d') :
      Feeds c p raw source ⟨p.finished, some d'⟩

theorem feeds_of_feed {c : Compiler} {p p' : Progress} {raw : List Char} {source : SourceRef}
    (h : p.feed c raw source = .ok p') : p.Feeds c raw source p' := by
  simp only [feed] at h
  split at h
  case isTrue blank =>
    obtain rfl := Except.ok.inj h
    exact .ignored blank
  case isFalse =>
    split at h
    case isTrue ends =>
      cases under : p.draft with
      | none =>
          simp only [under, Option.map_none] at h
          cases h
      | some d =>
          simp only [under, Option.map_some] at h
          cases done : (d.keepLine (String.ofList raw)).finish source with
          | error e =>
              rw [done] at h
              cases h
          | ok w =>
              rw [done] at h
              obtain rfl := Except.ok.inj h
              exact .ended ends under done
    case isFalse =>
      cases under : p.draft with
      | none =>
          simp only [under, Option.map_none, startWorkflow] at h
          split at h
          case h_1 read =>
            split at h
            case isTrue => cases h
            case isFalse named =>
              obtain rfl := Except.ok.inj h
              exact .begun under read (by simpa using named)
          case h_2 => cases h
      | some d =>
          simp only [under, Option.map_some] at h
          cases added : (d.keepLine (String.ofList raw)).addLine c (Text.trim raw) source with
          | error e =>
              rw [added] at h
              cases h
          | ok d' =>
              rw [added] at h
              obtain rfl := Except.ok.inj h
              exact .taken under (Draft.takes_of_addLine added)

end Progress
end Journey
