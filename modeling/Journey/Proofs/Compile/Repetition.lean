import Journey.Proofs.Compile.Purity

/-!
Parameters that are given twice. What an action line says twice to the action itself is refused, so that no
text with such a line compiles. An option of the step is no parameter of the action, and nothing is said of
those that are given again.
-/

namespace Journey

open Text

namespace StepDraft

variable {profiles : Option (List String)} {given : List (String × Value)} {d d' e : StepDraft}

theorem sorted_of_foldlM (h : given.foldlM (addParam profiles) empty = .ok d) : Dict.Sorted d.params := by
  have start : Dict.Sorted empty.params := List.Pairwise.nil
  refine Except.foldlM_preserves (I := fun d => Dict.Sorted d.params) ?_ start h
  intro d param d' _ sorted added
  cases adds_of_addParam added with
  | target | id | timeout known | retry number => exact sorted
  | param free fresh => exact Dict.sorted_insert sorted _ _

/-- What a line gives to the action itself it gives once. -/
theorem nodup_free (h : given.foldlM (addParam profiles) empty = .ok d) :
    ((free given).map Prod.fst).Nodup :=
  ((madeOf_of_foldlM h).params.map Prod.fst).nodup_iff.mp (sorted_of_foldlM h).nodup_keys

theorem count_free {key : String} (own : key ∉ reserved) :
    ((free given).map Prod.fst).count key = (given.map Prod.fst).count key := by
  have keys : (free given).map Prod.fst = (given.map Prod.fst).filter (· ∉ reserved) := by
    rw [List.filter_map]
    rfl
  rw [keys, List.count_filter (by simpa using own)]

end StepDraft

namespace Compiler

variable {c : Compiler} {action : ActionLine} {source : SourceRef} {step : Step}

theorem nodup_of_compileStep (h : c.compileStep action source = .ok step) :
    ((StepDraft.free action.params).map Prod.fst).Nodup := by
  obtain ⟨d, compiles⟩ := compiles_of_compileStep h
  exact StepDraft.nodup_free compiles.collected

/-- A text compiles only if every action line of it makes a step. -/
theorem exists_compileStep {text file : String} {ws : List Workflow} {raw : List Char}
    (compiled : c.compileAll text file = .ok ws) (among : raw ∈ lines text.toList)
    (read : ActionLine.parse raw = .ok (some action)) :
    ∃ source step, c.compileStep action source = .ok step := by
  obtain ⟨p, source, p', feeds⟩ := feeds_of_compileLines (compileLines_of_compileAll compiled) raw among
  have led : ActionLine.Led raw := ActionLine.led_of_parse (by simp [read])
  obtain ⟨d, d', takes⟩ := feeds.takes led.inner
  rw [← ActionLine.parse_trim] at read
  cases takes with
  | action read' compiled inside =>
      obtain rfl := Option.some.inj (Except.ok.inj (read.symm.trans read'))
      exact ⟨source, _, compiled⟩
  | ending read' ends closes | statement read' noEnd outside states =>
      cases read.symm.trans read'

/-- A text with a line that gives a parameter to its action twice does not compile, with the lint or without
it, wherever the line stands. -/
theorem compileAll_repeated (c : Compiler) (text file : String) {raw : List Char} {action : ActionLine}
    {key : String} (among : raw ∈ lines text.toList)
    (read : ActionLine.parse raw = .ok (some action))
    (twice : 2 ≤ (action.params.map Prod.fst).count key) (own : key ∉ StepDraft.reserved) :
    ∃ error, c.compileAll text file = .error error := by
  cases compiled : c.compileAll text file with
  | error error => exact ⟨error, rfl⟩
  | ok ws =>
      obtain ⟨source, step, made⟩ := exists_compileStep compiled among read
      have once := List.nodup_iff_count.mp (nodup_of_compileStep made) key
      rw [StepDraft.count_free own] at once
      omega

/-- An address that is given twice in a text that is all right otherwise. -/
def visiting : String :=
  "workflow: w\nphase: one\nstep page.goto url=a url=b\nend phase\nend workflow"

def visiting.line : ActionLine := ⟨.step, "page.goto", [("url", .str "a"), ("url", .str "b")], []⟩

theorem compileAll_visiting_refused :
    "step page.goto url=a url=b".toList ∈ lines visiting.toList ∧
      ActionLine.parse "step page.goto url=a url=b".toList = .ok (some visiting.line) ∧
      2 ≤ (visiting.line.params.map Prod.fst).count "url" ∧ "url" ∉ StepDraft.reserved ∧
      ∃ error, (⟨.builtin, none, true⟩ : Compiler).compileAll visiting "page.flow" = .error error := by
  have among : "step page.goto url=a url=b".toList ∈ lines visiting.toList := by decide
  have read : ActionLine.parse "step page.goto url=a url=b".toList = .ok (some visiting.line) := rfl
  have twice : 2 ≤ (visiting.line.params.map Prod.fst).count "url" := by decide
  have own : "url" ∉ StepDraft.reserved := by decide
  exact ⟨among, read, twice, own, compileAll_repeated _ _ _ among read twice own⟩

/-- A step with two targets. -/
def clicking : String :=
  "workflow: w\nphase: one\nstep element.click target=cancel target=save\nend phase\nend workflow"

def clicking.line : ActionLine :=
  ⟨.step, "element.click", [("target", .str "cancel"), ("target", .str "save")], []⟩

/-- The text compiles without a word, and the step has lost one of its targets. -/
theorem compileAll_clicking_retargeted :
    "step element.click target=cancel target=save".toList ∈ lines clicking.toList ∧
      ActionLine.parse "step element.click target=cancel target=save".toList =
        .ok (some clicking.line) ∧
      2 ≤ (clicking.line.params.map Prod.fst).count "target" ∧
      ∃ w, (⟨.builtin, none, true⟩ : Compiler).compileAll clicking "page.flow" = .ok [w] ∧
        w.phases.map (fun p => p.steps.map Step.target) = [[some "save"]] := by
  have one : ((⟨.builtin, none, true⟩ : Compiler).compileAll clicking "page.flow").toOption.map
      (List.map fun w => w.phases.map fun p => p.steps.map Step.target) =
        some [[[some "save"]]] := rfl
  obtain ⟨w, compiled, same⟩ := Except.ok_of_toOption_singleton one
  exact ⟨by decide, rfl, by decide, w, compiled, same⟩

end Compiler
end Journey
