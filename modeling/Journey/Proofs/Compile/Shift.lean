import Journey.Compile
import Journey.Proofs.Except

/-!
Text that stands further down. Moving the lines of a text down moves every line that its workflows and its
errors name, and changes nothing else: the compiler does with a line what it does with it anywhere. That
workflows in front of a text leave it alone is stated for whole texts elsewhere.
-/

namespace Journey

def SourceRef.shift (k : Nat) (at_ : SourceRef) : SourceRef := { at_ with line := at_.line + k }

def Step.shift (k : Nat) (s : Step) : Step := { s with source := s.source.shift k }

def Phase.shift (k : Nat) (p : Phase) : Phase :=
  { p with steps := p.steps.map (Step.shift k), source := p.source.shift k }

/-- The workflow of the same lines, `k` lines further down. -/
def Workflow.shift (k : Nat) (w : Workflow) : Workflow :=
  { w with
    setup := w.setup.map (Step.shift k)
    phases := w.phases.map (Phase.shift k)
    recovery := w.recovery.map (Step.shift k)
    teardown := w.teardown.map (Step.shift k)
    source := w.source.shift k }

def OpenBlock.shift (k : Nat) : OpenBlock → OpenBlock
  | phase p => phase (p.shift k)
  | block name steps source => block name (steps.map (Step.shift k)) (source.shift k)

def Draft.shift (k : Nat) (d : Draft) : Draft :=
  { d with workflow := d.workflow.shift k, opened := d.opened.map (OpenBlock.shift k) }

/-- Only what is left open names a second line, that of the end it misses. -/
def CompileFault.shift (k : Nat) : CompileFault → CompileFault
  | unclosedPhase name close => unclosedPhase name (close.shift k)
  | unclosedBlock name close => unclosedBlock name (close.shift k)
  | fault => fault

def CompileError.shift (k : Nat) (e : CompileError) : CompileError :=
  ⟨e.source.shift k, e.fault.shift k⟩

/-- A fault that names no line. -/
def CompileFault.Placeless (fault : CompileFault) : Prop := ∀ k, fault.shift k = fault

namespace StepDraft

theorem placeless_of_expectName {key : String} {value : Value} {fault : CompileFault}
    (h : expectName key value = .error fault) : fault.Placeless := by
  simp only [expectName] at h
  split at h
  · split at h <;> cases h
    exact fun _ => rfl
  · cases h
    exact fun _ => rfl

theorem placeless_of_addParam {profiles : Option (List String)} {d : StepDraft}
    {param : String × Value} {fault : CompileFault} (h : d.addParam profiles param = .error fault) :
    fault.Placeless := by
  simp only [addParam] at h
  split at h
  case h_1 | h_2 => exact placeless_of_expectName (Except.error_of_map h)
  case h_3 =>
    split at h
    case h_1 unnamed =>
      cases h
      exact placeless_of_expectName unnamed
    case h_2 =>
      split at h <;> cases h
      exact fun _ => rfl
  case h_4 =>
    have number := Except.error_of_map h
    simp only [expectRetry] at number
    split at number
    · split at number <;> cases number
      exact fun _ => rfl
    · cases number
      exact fun _ => rfl
  case h_5 =>
    split at h <;> cases h
    exact fun _ => rfl

end StepDraft

namespace Compiler

variable (c : Compiler) (action : ActionLine) (source : SourceRef) (k : Nat)

/-- A step takes nothing from its line but the line's place. -/
theorem compileStep_shift :
    c.compileStep action (source.shift k) = (c.compileStep action source).map (Step.shift k) := by
  simp only [compileStep, Except.map_bind]
  rfl

variable {c action source}

theorem placeless_of_checkAgainst {keyword : String} {d : StepDraft} {spec : Option ActionSpec}
    {fault : CompileFault} (h : checkAgainst keyword d spec = .error fault) : fault.Placeless := by
  cases spec with
  | none => cases h
  | some spec =>
      simp only [checkAgainst, checkSpec] at h
      split at h
      · cases h
        exact fun _ => rfl
      · split at h
        · cases h
          exact fun _ => rfl
        · split at h <;> cases h
          exact fun _ => rfl

theorem placeless_of_compileStep {fault : CompileFault}
    (h : c.compileStep action source = .error fault) : fault.Placeless := by
  rcases Except.error_of_bind h with unknown | ⟨spec, -, h⟩
  · simp only [specFor] at unknown
    split at unknown
    · cases unknown
    · split at unknown <;> cases unknown
      exact fun _ => rfl
    · split at unknown <;> cases unknown
      exact fun _ => rfl
  · rcases Except.error_of_bind h with refused | ⟨d, -, h⟩
    · obtain ⟨_, _, -, refused⟩ := Except.error_of_foldlM refused
      exact StepDraft.placeless_of_addParam refused
    · rcases Except.error_of_bind h with flagged | ⟨_, -, h⟩
      · simp only [checkFlags] at flagged
        split at flagged <;> cases flagged
        exact fun _ => rfl
      · rcases Except.error_of_bind h with checked | ⟨_, -, h⟩
        · exact placeless_of_checkAgainst checked
        · cases h

end Compiler

namespace Phase

theorem parseHeader_shift (text : List Char) (source : SourceRef) (k : Nat) :
    parseHeader text (source.shift k) = (parseHeader text source).map (Phase.shift k) := by
  simp only [parseHeader]
  split
  · rfl
  · split
    · rfl
    · simp only [PhaseDraft.finish]
      split
      · rfl
      · split <;> rfl

theorem placeless_of_parseHeader {text : List Char} {source : SourceRef} {fault : CompileFault}
    (h : parseHeader text source = .error fault) : fault.Placeless := by
  simp only [parseHeader] at h
  split at h
  · cases h
    exact fun _ => rfl
  · split at h
    case h_1 refused =>
      cases h
      obtain ⟨d, token, -, refused⟩ := Except.error_of_foldlM refused
      cases token with
      | word word =>
          simp only [PhaseDraft.addToken] at refused
          split at refused <;> cases refused
          exact fun _ => rfl
      | pair key value =>
          simp only [PhaseDraft.addToken] at refused
          split at refused
          · split at refused <;> cases refused
            exact fun _ => rfl
          · split at refused
            · split at refused <;> cases refused
              exact fun _ => rfl
            · cases refused
              exact fun _ => rfl
    case h_2 =>
      simp only [PhaseDraft.finish] at h
      split at h
      · cases h
        exact fun _ => rfl
      · split at h <;> cases h
        exact fun _ => rfl

end Phase

namespace Draft

variable (d : Draft) (source : SourceRef) (k : Nat)

theorem keepLine_shift (raw : String) :
    (d.shift k).keepLine raw = (d.keepLine raw).shift k := rfl

theorem addStep_shift (step : Step) :
    (d.shift k).addStep (step.shift k) = (d.addStep step).map (shift k) := by
  obtain ⟨w, lines, seen, _ | phase | ⟨name, steps, source⟩⟩ := d
  · rfl
  · simp [addStep, shift, OpenBlock.shift, OpenBlock.addStep, Phase.shift, Except.map]
  · simp [addStep, shift, OpenBlock.shift, OpenBlock.addStep, Except.map]

theorem placeless_of_addStep {d : Draft} {step : Step} {fault : CompileFault}
    (h : d.addStep step = .error fault) : fault.Placeless := by
  simp only [addStep] at h
  split at h <;> cases h
  exact fun _ => rfl

theorem close_shift (word : String) :
    (d.shift k).close word (source.shift k) =
      ((d.close word source).map (shift k)).mapError (CompileError.shift k) := by
  obtain ⟨w, lines, seen, _ | phase | ⟨name, steps, at_⟩⟩ := d
  · rfl
  · by_cases named : word = "phase"
    · cases bare : phase.steps.isEmpty <;>
        simp [close, shift, OpenBlock.shift, OpenBlock.closingWord, named, Phase.shift, bare,
          Except.map, Except.mapError_ok, Except.mapError_error, Workflow.shift, CompileError.shift,
          CompileFault.shift]
    · simp [close, shift, OpenBlock.shift, OpenBlock.closingWord, named, Except.map, Except.mapError_error,
        CompileError.shift, CompileFault.shift]
  · by_cases named : word = name.text
    · cases name <;>
        simp [close, shift, OpenBlock.shift, OpenBlock.closingWord, named, fillBlock, Except.map,
          Except.mapError_ok, Workflow.shift]
    · simp [close, shift, OpenBlock.shift, OpenBlock.closingWord, named, Except.map, Except.mapError_error,
        CompileError.shift, CompileFault.shift]

theorem any_named_shift (phases : List Phase) (name : String) :
    ((phases.map (Phase.shift k)).any fun p => p.name == name) =
      phases.any fun p => p.name == name := by
  rw [List.any_map]
  rfl

theorem addMeta_shift (key : MetaKey) (value : List Char) :
    (d.shift k).addMeta key value (source.shift k) = (d.addMeta key value source).map (shift k) := by
  cases key with
  | workflow | tags | locators | success => rfl
  | onPhaseFailure =>
      simp only [addMeta]
      split <;> rfl
  | phase =>
      simp only [addMeta, Phase.parseHeader_shift]
      cases Phase.parseHeader value source with
      | error e => rfl
      | ok phase =>
          have names : ((d.shift k).workflow.phases.any fun p => p.name == (phase.shift k).name) =
              d.workflow.phases.any fun p => p.name == phase.name := any_named_shift k _ _
          simp only [Except.map, names]
          cases d.workflow.phases.any fun p => p.name == phase.name <;> rfl

theorem addStatement_shift (line : List Char) :
    (d.shift k).addStatement line (source.shift k) =
      (d.addStatement line source).map (shift k) := by
  simp only [addStatement]
  split
  case h_1 name _ =>
    simp only [openBlock, show (d.shift k).seen = d.seen from rfl]
    cases d.seen.contains name <;> rfl
  case h_2 =>
    split
    case h_1 => rfl
    case h_2 name _ _ =>
      simp only [declare, show (d.shift k).workflow.vars = d.workflow.vars from rfl]
      cases Dict.contains d.workflow.vars name <;> rfl
    case h_3 =>
      split
      case h_1 => exact addMeta_shift d source k _ _
      case h_2 => rfl

variable {d source}

theorem placeless_of_addMeta {key : MetaKey} {value : List Char} {fault : CompileFault}
    (h : d.addMeta key value source = .error fault) : fault.Placeless := by
  cases key with
  | tags | locators | success => cases h
  | workflow =>
      cases h
      exact fun _ => rfl
  | onPhaseFailure =>
      simp only [addMeta] at h
      split at h <;> cases h
      exact fun _ => rfl
  | phase =>
      simp only [addMeta] at h
      split at h
      case h_1 bad =>
        cases h
        exact Phase.placeless_of_parseHeader bad
      case h_2 =>
        split at h <;> cases h
        exact fun _ => rfl

theorem placeless_of_addStatement {line : List Char} {fault : CompileFault}
    (h : d.addStatement line source = .error fault) : fault.Placeless := by
  simp only [addStatement] at h
  split at h
  · simp only [openBlock] at h
    split at h <;> cases h
    exact fun _ => rfl
  · split at h
    · cases h
      exact fun _ => rfl
    · simp only [declare] at h
      split at h <;> cases h
      exact fun _ => rfl
    · split at h
      · exact placeless_of_addMeta h
      · cases h
        exact fun _ => rfl

variable (d source)

theorem addLine_shift (c : Compiler) (line : List Char) :
    (d.shift k).addLine c line (source.shift k) =
      ((d.addLine c line source).map (shift k)).mapError (CompileError.shift k) := by
  have moved {fault : CompileFault} (h : fault.Placeless) :
      CompileError.shift k ⟨source, fault⟩ = ⟨source.shift k, fault⟩ := by
    rw [CompileError.shift, h k]
  simp only [addLine]
  split
  case h_1 => rfl
  case h_2 action _ =>
    rw [c.compileStep_shift]
    cases compiled : c.compileStep action source with
    | error fault =>
        simp only [Except.map, Except.mapError_error, moved (Compiler.placeless_of_compileStep compiled)]
    | ok step =>
        simp only [Except.map, addStep_shift]
        cases added : d.addStep step with
        | error fault => simp only [Except.mapError_error, moved (placeless_of_addStep added)]
        | ok d' => rfl
  case h_3 =>
    split
    case h_1 => exact d.close_shift source k _
    case h_2 =>
      rw [addStatement_shift, show (d.shift k).opened = d.opened.map (OpenBlock.shift k) from rfl]
      cases d.opened with
      | some opened => cases opened <;> rfl
      | none =>
          cases added : d.addStatement line source with
          | error fault =>
              simp only [Option.map_none, Except.map, Except.mapError_error,
                moved (placeless_of_addStatement added)]
          | ok d' => rfl

/-- The digest of a workflow is that of its text, wherever it stands. -/
theorem finish_shift :
    (d.shift k).finish (source.shift k) =
      ((d.finish source).map (Workflow.shift k)).mapError (CompileError.shift k) := by
  obtain ⟨w, lines, seen, _ | phase | ⟨name, steps, at_⟩⟩ := d
  · cases bare : w.phases.isEmpty <;>
      simp [finish, shift, Workflow.shift, bare, Except.map, Except.mapError_ok, Except.mapError_error,
        CompileError.shift, CompileFault.shift, text]
  · rfl
  · rfl

end Draft

namespace Progress

/-- The progress through a text that stands `k` lines down, with the workflows in front of it. -/
def behind (done : List Workflow) (k : Nat) (p : Progress) : Progress :=
  ⟨done ++ p.finished.map (Workflow.shift k), p.draft.map (Draft.shift k)⟩

variable (done : List Workflow) (k : Nat) (p : Progress) (c : Compiler)

theorem feed_behind (raw : List Char) (source : SourceRef) :
    (p.behind done k).feed c raw (source.shift k) =
      ((p.feed c raw source).map (behind done k)).mapError (CompileError.shift k) := by
  obtain ⟨finished, draft⟩ := p
  simp only [feed, behind]
  by_cases ignored : isIgnored (Text.trim raw) = true
  · rw [if_pos ignored, if_pos ignored]
    cases draft <;> rfl
  rw [if_neg ignored, if_neg ignored]
  by_cases ends : Text.trim raw = "end workflow".toList
  · rw [if_pos ends, if_pos ends]
    cases draft with
    | none => rfl
    | some d =>
        simp only [Option.map_some, Draft.keepLine_shift, Draft.finish_shift]
        cases (d.keepLine (String.ofList raw)).finish source with
        | error e => rfl
        | ok w => simp [Except.map, Except.mapError_ok, behind]
  · rw [if_neg ends, if_neg ends]
    cases draft with
    | none =>
        simp only [Option.map_none, startWorkflow]
        split
        · split <;> rfl
        · rfl
    | some d =>
        simp only [Option.map_some, Draft.keepLine_shift, Draft.addLine_shift]
        cases (d.keepLine (String.ofList raw)).addLine c (Text.trim raw) source <;> rfl

theorem feedAll_behind (file : String) (n : Nat) (raws : List (List Char)) :
    feedAll c file (n + k) raws (p.behind done k) =
      ((feedAll c file n raws p).map (behind done k)).mapError (CompileError.shift k) := by
  induction raws generalizing n p with
  | nil => rfl
  | cons raw rest ih =>
      have first := p.feed_behind done k c raw ⟨file, n⟩
      rw [feedAll, feedAll, show (⟨file, n + k⟩ : SourceRef) = SourceRef.shift k ⟨file, n⟩ from rfl,
        first]
      cases p.feed c raw ⟨file, n⟩ with
      | error e => rfl
      | ok next =>
          have later := ih next (n + 1)
          rw [Nat.add_right_comm] at later
          exact later

theorem finish_behind :
    (p.behind done k).finish =
      (p.finish.map fun ws => done ++ ws.map (Workflow.shift k)).mapError (CompileError.shift k) := by
  obtain ⟨finished, _ | d⟩ := p <;> rfl

end Progress
end Journey
