import Journey.Proofs.Compile.Feed

/-!
The content of compiled workflows. Every step comes from an action line of the text and every variable
from a variable line, so that what all of these lines guarantee holds throughout the workflows. The
order in which steps and variables stand is a separate matter.
-/

namespace Journey

variable {P : Step → Prop} {Q : String × Value → Prop}

/-- Every step and every variable of the workflow is as it should be. -/
structure Workflow.Holds (P : Step → Prop) (Q : String × Value → Prop) (w : Workflow) : Prop where
  steps : ∀ s ∈ w.steps, P s
  vars : ∀ entry ∈ w.vars, Q entry

def OpenBlock.steps : OpenBlock → List Step
  | .phase p => p.steps
  | .block _ steps _ => steps

structure Draft.Holds (P : Step → Prop) (Q : String × Value → Prop) (d : Draft) : Prop where
  workflow : d.workflow.Holds P Q
  opened : ∀ opened, d.opened = some opened → ∀ s ∈ opened.steps, P s

structure Progress.Holds (P : Step → Prop) (Q : String × Value → Prop) (p : Progress) : Prop where
  finished : ∀ w ∈ p.finished, w.Holds P Q
  draft : ∀ d, p.draft = some d → d.Holds P Q

/-- Whatever step or variable is read off the line is as it should be. -/
structure Compiler.Yields (c : Compiler) (P : Step → Prop) (Q : String × Value → Prop)
    (line : List Char) : Prop where
  step : ∀ action source step, ActionLine.parse line = .ok (some action) →
    c.compileStep action source = .ok step → P step
  declared : ∀ name value, Variable.parseLine line = some (name, .ok value) → Q (name, value)

theorem Workflow.mem_steps {w : Workflow} {s : Step} :
    s ∈ w.steps ↔ s ∈ w.setup ∨ (∃ p ∈ w.phases, s ∈ p.steps) ∨ s ∈ w.recovery ∨ s ∈ w.teardown := by
  simp [steps]

theorem OpenBlock.mem_addStep {opened : OpenBlock} {step s : Step}
    (h : s ∈ (opened.addStep step).steps) : s ∈ opened.steps ∨ s = step := by
  cases opened with
  | phase phase => simpa [addStep, steps] using h
  | block name steps source => simpa [addStep, OpenBlock.steps] using h

namespace Draft

theorem mem_fillBlock {d : Draft} {name : BlockName} {steps : List Step} {s : Step}
    (h : s ∈ (d.fillBlock name steps).workflow.steps) : s ∈ d.workflow.steps ∨ s ∈ steps := by
  rw [Workflow.mem_steps] at h ⊢
  cases name with
  | setup =>
      rcases h with new | phases | rest
      · exact .inr new
      · exact .inl (.inr (.inl phases))
      · exact .inl (.inr (.inr rest))
  | recovery =>
      rcases h with setup | phases | new | teardown
      · exact .inl (.inl setup)
      · exact .inl (.inr (.inl phases))
      · exact .inr new
      · exact .inl (.inr (.inr (.inr teardown)))
  | teardown =>
      rcases h with setup | phases | recovery | new
      · exact .inl (.inl setup)
      · exact .inl (.inr (.inl phases))
      · exact .inl (.inr (.inr (.inl recovery)))
      · exact .inr new

theorem fillBlock_vars (d : Draft) (name : BlockName) (steps : List Step) :
    (d.fillBlock name steps).workflow.vars = d.workflow.vars := by
  cases name <;> rfl

theorem fillBlock_opened (d : Draft) (name : BlockName) (steps : List Step) :
    (d.fillBlock name steps).opened = none := by
  cases name <;> rfl

theorem holds_begin (name : String) (source : SourceRef) (raw : String) :
    (begin name source raw).Holds P Q where
  workflow := ⟨List.forall_mem_nil _, List.forall_mem_nil _⟩
  opened _ h := by cases h

theorem Holds.keepLine {d : Draft} (h : d.Holds P Q) (raw : String) : (d.keepLine raw).Holds P Q :=
  ⟨h.workflow, h.opened⟩

theorem Holds.closes {d d' : Draft} {word : String} (h : d.Holds P Q) (closes : d.Closes word d') :
    d'.Holds P Q := by
  cases closes with
  | @phase phase inside named filled =>
      refine ⟨⟨fun s hs => ?_, h.workflow.vars⟩, fun _ closed => by cases closed⟩
      rw [Workflow.mem_steps] at hs
      rcases hs with setup | ⟨p, hp, inPhase⟩ | rest
      · exact h.workflow.steps s (Workflow.mem_steps.mpr (.inl setup))
      · rcases List.mem_append.mp hp with old | new
        · exact h.workflow.steps s (Workflow.mem_steps.mpr (.inr (.inl ⟨p, old, inPhase⟩)))
        · obtain rfl := List.mem_singleton.mp new
          exact h.opened _ inside s inPhase
      · exact h.workflow.steps s (Workflow.mem_steps.mpr (.inr (.inr rest)))
  | @block name steps at_ inside named =>
      refine ⟨⟨fun s hs => ?_, ?_⟩, ?_⟩
      · rcases mem_fillBlock hs with old | new
        · exact h.workflow.steps s old
        · exact h.opened _ inside s new
      · rw [fillBlock_vars]
        exact h.workflow.vars
      · rw [fillBlock_opened]
        exact fun _ closed => by cases closed

theorem Holds.states {d d' : Draft} {line : List Char} {source : SourceRef} (h : d.Holds P Q)
    (good : ∀ name value, Variable.parseLine line = some (name, .ok value) → Q (name, value))
    (states : d.States line source d') : d'.Holds P Q := by
  cases states with
  | block read fresh =>
      refine ⟨h.workflow, fun opened now s hs => ?_⟩
      cases now
      exact absurd hs List.not_mem_nil
  | @declared name value read fresh =>
      refine ⟨⟨h.workflow.steps, fun entry hentry => ?_⟩, h.opened⟩
      rcases Dict.mem_insert hentry with rfl | old
      · exact good name value read
      · exact h.workflow.vars entry old
  | tags read | locators read | success read | failurePolicy read known =>
      exact ⟨⟨h.workflow.steps, h.workflow.vars⟩, h.opened⟩
  | phase read header fresh =>
      refine ⟨h.workflow, fun opened now s hs => ?_⟩
      cases now
      rw [OpenBlock.steps, (bare_of_parseHeader header).1] at hs
      exact absurd hs List.not_mem_nil

theorem Holds.takes {c : Compiler} {d d' : Draft} {line : List Char} {source : SourceRef}
    (h : d.Holds P Q) (good : c.Yields P Q line) (takes : d.Takes c line source d') :
    d'.Holds P Q := by
  cases takes with
  | @action action step opened read compiled inside =>
      refine ⟨h.workflow, fun now same s hs => ?_⟩
      obtain rfl := Option.some.inj same
      rcases OpenBlock.mem_addStep hs with old | rfl
      · exact h.opened opened inside s old
      · exact good.step action source s read compiled
  | ending read ends closes => exact h.closes closes
  | statement read noEnd outside states => exact h.states good.declared states

theorem Holds.finish {d : Draft} {source : SourceRef} {w : Workflow} (h : d.Holds P Q)
    (done : d.finish source = .ok w) : w.Holds P Q := by
  simp only [Draft.finish] at done
  split at done
  case h_1 => cases done
  case h_2 =>
    split at done
    case isTrue => cases done
    case isFalse =>
      obtain rfl := Except.ok.inj done
      exact ⟨h.workflow.steps, h.workflow.vars⟩

end Draft

namespace Progress

theorem holds_begin : begin.Holds P Q where
  finished w h := absurd h List.not_mem_nil
  draft _ h := by cases h

theorem Holds.feeds {c : Compiler} {p p' : Progress} {raw : List Char} {source : SourceRef}
    (h : p.Holds P Q) (good : c.Yields P Q (Text.trim raw)) (feeds : p.Feeds c raw source p') :
    p'.Holds P Q := by
  cases feeds with
  | ignored blank =>
      refine ⟨h.finished, fun d now => ?_⟩
      obtain ⟨before, under, rfl⟩ := Option.map_eq_some_iff.mp now
      exact (h.draft before under).keepLine _
  | @ended d w ends under done =>
      refine ⟨fun x hx => ?_, fun _ now => by cases now⟩
      rcases List.mem_append.mp hx with old | new
      · exact h.finished x old
      · obtain rfl := List.mem_singleton.mp new
        exact ((h.draft d under).keepLine _).finish done
  | begun outside read named =>
      refine ⟨h.finished, fun d now => ?_⟩
      obtain rfl := Option.some.inj now
      exact Draft.holds_begin _ _ _
  | @taken d d' under takes =>
      refine ⟨h.finished, fun now same => ?_⟩
      obtain rfl := Option.some.inj same
      exact ((h.draft d under).keepLine _).takes good takes

theorem Holds.feedAll {c : Compiler} {file : String} {lines : List (List Char)} {n : Nat}
    {p p' : Progress} (h : p.Holds P Q)
    (good : ∀ raw ∈ lines, c.Yields P Q (Text.trim raw))
    (fed : Progress.feedAll c file n lines p = .ok p') : p'.Holds P Q := by
  induction lines generalizing n p with
  | nil =>
      obtain rfl := Except.ok.inj fed
      exact h
  | cons raw rest ih =>
      obtain ⟨here, later⟩ := List.forall_mem_cons.mp good
      simp only [Progress.feedAll] at fed
      split at fed
      case h_1 => cases fed
      case h_2 next first => exact ih (h.feeds here (feeds_of_feed first)) later fed

end Progress

/-- What every line of a text yields holds of all that is compiled from it. -/
theorem Compiler.holds_of_compileLines {c : Compiler} {file : String} {lines : List (List Char)}
    {ws : List Workflow} (good : ∀ raw ∈ lines, c.Yields P Q (Text.trim raw))
    (h : c.compileLines file lines = .ok ws) : ∀ w ∈ ws, w.Holds P Q := by
  simp only [compileLines] at h
  split at h
  case h_1 => cases h
  case h_2 p fed =>
    have holds := Progress.holds_begin.feedAll good fed
    simp only [Progress.finish] at h
    split at h
    case h_1 =>
      obtain rfl := Except.ok.inj h
      exact holds.finished
    case h_2 => cases h

end Journey
