import Journey.Proofs.Compile.Content
import Journey.Proofs.Compile.Line
import Journey.Proofs.Compile.Step

/-!
Purity of compiled workflows. With the lint on, the first impure line of a text decides the error, and
what compiles is pure throughout: lint and compiler read the same actions and variables off every
line. A line that neither of them can split into words is never compiled.
-/

namespace Journey

open Text

/-- A step that says neither how an element is queried nor for how long to wait. -/
structure Step.Pure (s : Step) : Prop where
  keyword : s.keyword ∉ Lint.sleepKeywords
  target : ∀ text, s.target = some text →
    Lint.isLogicalKey text = true ∨ (Placeholder.sole? text).isSome = true
  names : ∀ p ∈ s.params, Lint.isSelectorKey p.1 = false
  durations : ∀ p ∈ s.params, Lint.isDurationKey p.1 = true → Lint.isLiteralDuration p.2 = false
  timeout : ∀ text, s.timeout = some text → Lint.isLiteralDuration (.str text) = false
  texts : ∀ key text, (key, .str text) ∈ s.params →
    Lint.looksLikeQuery (trim text.toList) = false
  options : ∀ text, s.id = some text ∨ s.timeout = some text →
    Lint.looksLikeQuery (trim text.toList) = false

structure Workflow.Pure (w : Workflow) : Prop where
  steps : ∀ s ∈ w.steps, s.Pure
  vars : ∀ entry ∈ w.vars, Lint.checkVariable entry.1 entry.2 = []

namespace Lint

/-- The lint skips the line because it cannot be split into words. -/
def Untokenized (raw : List Char) : Prop :=
  (∃ error, ActionLine.parse raw = .error error) ∨
    ∃ name error, Variable.parseLine raw = some (name, .error error)

theorem checkFrom_eq_nil {file : String} {n : Nat} {lines : List (List Char)}
    (h : checkFrom file n lines = []) : ∀ raw ∈ lines, checkLine raw = [] := by
  induction lines generalizing n with
  | nil => exact List.forall_mem_nil _
  | cons raw rest ih =>
      obtain ⟨here, later⟩ := List.append_eq_nil_iff.mp h
      exact List.forall_mem_cons.mpr ⟨List.map_eq_nil_iff.mp here, ih later⟩

/-- The first violation is on the first line that breaks a rule. -/
theorem head?_checkFrom {file : String} {n : Nat} {lines : List (List Char)}
    (h : checkFrom file n lines ≠ []) : ∃ before raw after v,
      lines = before ++ raw :: after ∧ (∀ line ∈ before, checkLine line = []) ∧
        checkLine raw ≠ [] ∧ (checkFrom file n lines).head? = some v ∧
        v.source = ⟨file, before.length + n⟩ := by
  induction lines generalizing n with
  | nil => exact absurd rfl h
  | cons raw rest ih =>
      cases found : checkLine raw with
      | cons cause more =>
          refine ⟨[], raw, rest, ⟨cause, ⟨file, n⟩, String.ofList (trim raw)⟩, rfl,
            List.forall_mem_nil _, by simp [found], ?_, by simp⟩
          simp [checkFrom, found]
      | nil =>
          have same : checkFrom file n (raw :: rest) = checkFrom file (n + 1) rest := by
            simp [checkFrom, found]
          rw [same] at h ⊢
          obtain ⟨before, bad, after, v, split, clean, dirty, first, source⟩ := ih h
          refine ⟨raw :: before, bad, after, v, by rw [split]; rfl,
            List.forall_mem_cons.mpr ⟨found, clean⟩, dirty, first, ?_⟩
          rw [source, List.length_cons]
          congr 1
          omega

theorem checkLine_of_action {raw : List Char} {action : ActionLine}
    (read : ActionLine.parse raw = .ok (some action)) : checkLine raw = checkAction action := by
  have led : ActionLine.Led raw := ActionLine.led_of_parse (by simp [read])
  simp [checkLine, Variable.parseLine_of_led led, read]

theorem checkLine_of_variable {raw : List Char} {name : String} {value : Value}
    (read : Variable.parseLine raw = some (name, .ok value)) :
    checkLine raw = checkVariable name value := by
  simp [checkLine, read]

theorem clean_of_checkAction {action : ActionLine} (h : checkAction action = []) :
    action.keyword ∉ sleepKeywords ∧ ∀ p ∈ action.params, checkParam p.1 p.2 = [] := by
  obtain ⟨keyword, params⟩ := List.append_eq_nil_iff.mp h
  refine ⟨fun sleeps => ?_, fun p hp => List.flatMap_eq_nil_iff.mp params p hp⟩
  rw [if_pos (List.contains_iff_mem.mpr sleeps)] at keyword
  cases keyword

theorem clean_target {text : String} (h : checkParam "target" (.str text) = []) :
    isLogicalKey text = true ∨ (Placeholder.sole? text).isSome = true := by
  have selector : isSelectorKey "target" = false := by decide
  simp only [checkParam, selector, Bool.false_eq_true, if_false, if_true, checkTarget] at h
  split at h
  case isTrue good => simpa using good
  case isFalse => cases h

structure CleanParam (key : String) (value : Value) : Prop where
  name : isSelectorKey key = false
  duration : isDurationKey key = true → isLiteralDuration value = false
  text : ∀ s, value = .str s → looksLikeQuery (trim s.toList) = false

theorem clean_param {key : String} {value : Value} (other : key ≠ "target")
    (h : checkParam key value = []) : CleanParam key value := by
  simp only [checkParam, other, if_false] at h
  split at h
  case isTrue => cases h
  case isFalse name =>
    split at h
    case isTrue => cases h
    case isFalse literal =>
      refine ⟨by simpa using name, fun key => ?_, fun s same => ?_⟩
      · simpa [key] using literal
      · subst same
        simp only [checkValue] at h
        split at h
        case isTrue => cases h
        case isFalse plain => simpa using plain

end Lint

namespace Compiler

theorem fullKeyword_not_sleep {action : ActionLine} (h : action.keyword ∉ Lint.sleepKeywords) :
    fullKeyword action ∉ Lint.sleepKeywords := by
  have lead : ("assert." ++ action.keyword).toList.head? = some 'a' := by
    simp [String.toList_append]
  have heads : ∀ word ∈ Lint.sleepKeywords, word.toList.head? ≠ some 'a' := by
    simp [Lint.sleepKeywords]
  have prefixed : "assert." ++ action.keyword ∉ Lint.sleepKeywords := fun sleeps =>
    heads _ sleeps lead
  cases verb : action.verb with
  | step | do_ => simpa [fullKeyword, verb] using h
  | assert =>
      simp only [fullKeyword, verb]
      split
      · exact h
      · exact prefixed

theorem pure_of_compileStep {c : Compiler} {action : ActionLine} {source : SourceRef} {step : Step}
    (clean : Lint.checkAction action = []) (h : c.compileStep action source = .ok step) :
    step.Pure := by
  obtain ⟨d, compiles⟩ := compiles_of_compileStep h
  obtain ⟨awake, params⟩ := Lint.clean_of_checkAction clean
  have given := StepDraft.from_of_foldlM compiles.collected
  -- The lint judges the parameters of the line, among which those of the step are.
  have own : ∀ p ∈ step.params, Lint.CleanParam p.1 p.2 := by
    intro p hp
    rw [compiles.params] at hp
    obtain ⟨mem, free⟩ := given.params p hp
    have other : p.1 ≠ "target" := fun same => free (same ▸ List.mem_cons_self)
    exact Lint.clean_param other (params p mem)
  have id : ∀ text, step.id = some text → Lint.CleanParam "id" (.str text) := fun text named =>
    Lint.clean_param (by decide) (params ("id", .str text) (given.id text (compiles.id ▸ named)))
  have timeout : ∀ text, step.timeout = some text → Lint.CleanParam "timeout" (.str text) :=
    fun text named =>
      Lint.clean_param (by decide)
        (params ("timeout", .str text) (given.timeout text (compiles.timeout ▸ named)))
  exact {
    keyword := compiles.keyword ▸ fullKeyword_not_sleep awake
    target := fun text named =>
      Lint.clean_target
        (params ("target", .str text) (given.target text (compiles.target ▸ named)))
    names := fun p hp => (own p hp).name
    durations := fun p hp => (own p hp).duration
    timeout := fun text named => (timeout text named).duration (by decide)
    texts := fun key text mem => (own _ mem).text text rfl
    options := by
      rintro text (named | named)
      · exact (id text named).text text rfl
      · exact (timeout text named).text text rfl }

/-- What the lint accepts on a line is pure once it is compiled. -/
theorem yields_pure (c : Compiler) {raw : List Char} (clean : Lint.checkLine raw = []) :
    c.Yields Step.Pure (fun entry => Lint.checkVariable entry.1 entry.2 = []) (trim raw) where
  step action source step read compiled := by
    rw [ActionLine.parse_trim] at read
    exact pure_of_compileStep (Lint.checkLine_of_action read ▸ clean) compiled
  declared name value read := by
    rw [Variable.parseLine_trim] at read
    exact Lint.checkLine_of_variable read ▸ clean

end Compiler

namespace Progress

/-- A line from inside of a workflow is taken in by the workflow under construction. -/
theorem Feeds.takes {c : Compiler} {p p' : Progress} {raw : List Char} {source : SourceRef}
    (h : p.Feeds c raw source p') (inner : InnerLine raw) :
    ∃ d d' : Draft, d.Takes c (trim raw) source d' := by
  cases h with
  | ignored blank =>
      rw [inner.shown] at blank
      cases blank
  | ended ends under done => exact absurd ends inner.goesOn
  | begun outside read named =>
      rw [inner.plain] at read
      cases read
  | taken under takes => exact ⟨_, _, takes⟩

theorem Feeds.parse_ne_error {c : Compiler} {p p' : Progress} {raw : List Char}
    {source : SourceRef} (h : p.Feeds c raw source p') (error : TokenError) :
    ActionLine.parse raw ≠ .error error := by
  intro lost
  have led : ActionLine.Led raw := ActionLine.led_of_parse (by simp [lost])
  obtain ⟨d, d', takes⟩ := h.takes led.inner
  rw [← ActionLine.parse_trim] at lost
  cases takes with
  | action read compiled inside | ending read ends closes | statement read noEnd outside states =>
      rw [lost] at read
      cases read

theorem Feeds.parseLine_ne_error {c : Compiler} {p p' : Progress} {raw : List Char}
    {source : SourceRef} (h : p.Feeds c raw source p') (name : String) (error : TokenError) :
    Variable.parseLine raw ≠ some (name, .error error) := by
  intro lost
  have led : Variable.Led raw := Variable.led_of_parseLine (by simp [lost])
  obtain ⟨d, d', takes⟩ := h.takes led.inner
  rw [← Variable.parseLine_trim] at lost
  -- The line begins with `var`, which leaves only the declaration that fails.
  cases takes with
  | action read compiled inside =>
      rw [ActionLine.parse_trim, led.not_action] at read
      cases read
  | ending read ends closes =>
      rw [led.not_close] at ends
      cases ends
  | statement read noEnd outside states =>
      cases states with
      | block same fresh => exact led.not_block _ same
      | declared value fresh =>
          rw [lost] at value
          cases value
      | tags key | locators key | success key | failurePolicy key _ | phase key _ _ =>
          rw [led.inner.plain] at key
          cases key

theorem feeds_of_feedAll {c : Compiler} {file : String} {lines : List (List Char)}
    {n : Nat} {p p' : Progress} (h : feedAll c file n lines p = .ok p') :
    ∀ raw ∈ lines, ∃ q source q', Feeds c q raw source q' := by
  induction lines generalizing n p with
  | nil => exact List.forall_mem_nil _
  | cons raw rest ih =>
      simp only [feedAll] at h
      split at h
      case h_1 => cases h
      case h_2 next first =>
        exact List.forall_mem_cons.mpr ⟨⟨p, _, next, feeds_of_feed first⟩, ih h⟩

end Progress

namespace Compiler

theorem feeds_of_compileLines {c : Compiler} {file : String} {lines : List (List Char)}
    {ws : List Workflow} (h : c.compileLines file lines = .ok ws) :
    ∀ raw ∈ lines, ∃ p source p', Progress.Feeds c p raw source p' := by
  simp only [compileLines] at h
  split at h
  case h_1 => cases h
  case h_2 p fed => exact Progress.feeds_of_feedAll fed

theorem not_untokenized {c : Compiler} {file : String} {lines : List (List Char)}
    {ws : List Workflow} (h : c.compileLines file lines = .ok ws) :
    ∀ raw ∈ lines, ¬ Lint.Untokenized raw := by
  intro raw hraw skipped
  obtain ⟨p, source, p', feeds⟩ := feeds_of_compileLines h raw hraw
  rcases skipped with ⟨error, lost⟩ | ⟨name, error, lost⟩
  · exact feeds.parse_ne_error error lost
  · exact feeds.parseLine_ne_error name error lost

theorem compileLines_of_compileAll {c : Compiler} {text file : String} {ws : List Workflow}
    (h : c.compileAll text file = .ok ws) : c.compileLines file (lines text.toList) = .ok ws := by
  simp only [compileAll] at h
  split at h
  case h_1 => cases h
  case h_2 => exact h

/-- What holds of every step that can be made of a line holds of all that is compiled. -/
theorem steps_of_compileAll {P : Step → Prop} {c : Compiler} {text file : String} {ws : List Workflow}
    (made : ∀ {action : ActionLine} {source : SourceRef} {s : Step},
      c.compileStep action source = .ok s → P s)
    (h : c.compileAll text file = .ok ws) : ∀ w ∈ ws, ∀ s ∈ w.steps, P s := by
  have holds := holds_of_compileLines (P := P) (Q := fun _ => True)
    (fun raw _ => ⟨fun _ _ _ _ compiled => made compiled, fun _ _ _ => trivial⟩)
    (compileLines_of_compileAll h)
  exact fun w mem => (holds w mem).steps

theorem check_eq_nil {c : Compiler} {text file : String} {ws : List Workflow} (on : c.lint = true)
    (h : c.compileAll text file = .ok ws) : Lint.check text file = [] := by
  simp only [compileAll, on, if_true] at h
  split at h
  case h_1 => cases h
  case h_2 none => exact List.head?_eq_none_iff.mp none

/-- With the lint on, the first impure line decides the error, what compiles is pure, and a text with a
line that cannot be split into words does not compile. -/
theorem compileAll_pure (c : Compiler) (text file : String) (on : c.lint = true) :
    (Lint.check text file ≠ [] → ∃ before raw after error,
      lines text.toList = before ++ raw :: after ∧
        (∀ line ∈ before, Lint.checkLine line = []) ∧ Lint.checkLine raw ≠ [] ∧
        c.compileAll text file = .error error ∧ error.source = ⟨file, before.length + 1⟩) ∧
    (∀ ws, c.compileAll text file = .ok ws → ∀ w ∈ ws, w.Pure) ∧
    (∀ raw ∈ lines text.toList, Lint.Untokenized raw →
      ∃ error, c.compileAll text file = .error error) := by
  refine ⟨fun impure => ?_, fun ws compiled => ?_, fun raw hraw skipped => ?_⟩
  · obtain ⟨before, raw, after, v, split, clean, dirty, first, source⟩ :=
      Lint.head?_checkFrom impure
    refine ⟨before, raw, after, ⟨v.source, .impure v.cause⟩, split, clean, dirty, ?_, source⟩
    simp only [compileAll, on, if_true, Lint.check, first]
  · have clean := Lint.checkFrom_eq_nil (check_eq_nil on compiled)
    have holds := holds_of_compileLines (fun raw hraw => c.yields_pure (clean raw hraw))
      (compileLines_of_compileAll compiled)
    exact fun w hw => ⟨(holds w hw).steps, (holds w hw).vars⟩
  · cases compiled : c.compileAll text file with
    | error error => exact ⟨error, rfl⟩
    | ok ws =>
        exact absurd skipped (not_untokenized (compileLines_of_compileAll compiled) raw hraw)

/-- The second line sleeps, and is where the error is, although the first is no statement at all. -/
theorem compileAll_sleep_refused : ∃ before raw after error,
    lines "nonsense\nstep wait.ms".toList = before ++ raw :: after ∧
      (∀ line ∈ before, Lint.checkLine line = []) ∧ Lint.checkLine raw ≠ [] ∧
      (⟨.empty, none, true⟩ : Compiler).compileAll "nonsense\nstep wait.ms" "page.flow" =
        .error error ∧ error.source = ⟨"page.flow", before.length + 1⟩ :=
  (compileAll_pure ⟨.empty, none, true⟩ "nonsense\nstep wait.ms" "page.flow" rfl).1 (by decide)

end Compiler
end Journey
