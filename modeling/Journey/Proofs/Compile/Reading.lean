import Journey.Proofs.Compile.Feed
import Journey.Proofs.Compile.Outline

/-!
Reading the lines of outlines. What a line does to a workflow under construction is stated for each
kind of line, the lines of an item put the item into the workflow, and so the lines of outlines are read
to their end. That no other lines are is a matter of acceptance.
-/

namespace Journey

variable {c : Compiler} {file : String} {header : Line} {items : List Item} {ws : List Workflow}

/-- The workflow under construction once the items have been read. -/
def Draft.outlined (c : Compiler) (file : String) (header : Line) (items : List Item) : Draft :=
  ⟨Outline.workflowOf c file header items, [], (Items.blocks items).reverse, none⟩

theorem Draft.outlined_concat (item : Item) :
    outlined c file header (items ++ [item]) =
      ⟨(Outline.workflowOf c file header items).add c file item, [],
        item.blockName?.toList ++ (Items.blocks items).reverse, none⟩ := by
  rw [outlined, Outline.workflowOf_concat]
  cases held : item.blockName? <;> simp [Items.blocks, held]

theorem Draft.finish_eq_ok {d : Draft} {source : SourceRef} {w : Workflow} :
    d.finish source = .ok w ↔
      d.opened = none ∧ d.workflow.phases ≠ [] ∧
        w = { d.workflow with digest := Text.digest d.text } := by
  simp only [finish]
  cases d.opened with
  | some opened => simp
  | none =>
      cases none : d.workflow.phases with
      | nil => simp
      | cons phase rest => simp [eq_comm]

def OpenBlock.holding (opened : OpenBlock) (steps : List Step) : OpenBlock :=
  steps.foldl (fun opened step => opened.addStep step) opened

theorem OpenBlock.holding_phase (phase : Phase) (steps : List Step) :
    (OpenBlock.phase phase).holding steps = .phase { phase with steps := phase.steps ++ steps } := by
  induction steps generalizing phase with
  | nil => simp [holding]
  | cons step rest ih =>
      refine (ih _).trans ?_
      simp

theorem OpenBlock.holding_block (name : BlockName) (held : List Step) (source : SourceRef)
    (steps : List Step) :
    (OpenBlock.block name held source).holding steps = .block name (held ++ steps) source := by
  induction steps generalizing held with
  | nil => simp [holding]
  | cons step rest ih =>
      refine (ih _).trans ?_
      simp

section Reading

variable {d : Draft} {l : Line}

namespace Draft

theorem addStatement_block {name : BlockName} {source : SourceRef}
    (opens : l.text = (name.text ++ ":").toList) :
    d.addStatement l.text source = d.openBlock name source := by
  have found : BlockName.all.find? (fun n => l.text = (n.text ++ ":").toList) = some name := by
    rw [opens]
    cases name <;> decide
  simp only [addStatement, found]

theorem addStatement_declared {name : String} {value : Value} {source : SourceRef}
    (read : Variable.parseLine l.text = some (name, .ok value)) :
    d.addStatement l.text source = d.declare name value := by
  have led := Line.led_of_variable read
  have noBlock : BlockName.all.find? (fun n => l.text = (n.text ++ ":").toList) = none := by
    rw [List.find?_eq_none]
    intro n _
    exact (decide_eq_true_iff (p := _)).not.mpr (led.not_block n)
  simp only [addStatement, noBlock, read]

theorem addStatement_keyed {key : MetaKey} {value : List Char} {source : SourceRef}
    (read : MetaKey.parse l.text = some (key, value)) :
    d.addStatement l.text source = d.addMeta key value source := by
  have noBlock : BlockName.all.find? (fun n => l.text = (n.text ++ ":").toList) = none := by
    rw [List.find?_eq_none]
    intro n _
    exact (decide_eq_true_iff (p := _)).not.mpr (MetaKey.not_block read n)
  have noVar : Variable.parseLine l.text = none := by
    rw [Line.text, Variable.parseLine_trim]
    exact MetaKey.not_variable read
  simp only [addStatement, noBlock, noVar, read]

end Draft

namespace Progress

theorem read_action {opened : OpenBlock} {action : ActionLine} {step : Step}
    (inside : d.opened = some opened) (read : ActionLine.parse l.text = .ok (some action))
    (compiled : c.compileStep action (l.at_ file) = .ok step) :
    Progress.read c file ⟨ws, some d⟩ l =
      .ok ⟨ws, some { d with opened := some (opened.addStep step) }⟩ := by
  rw [Progress.read, if_neg (show ¬ l.text = _ from (Line.led_of_action read).inner.goesOn)]
  simp only [Draft.addLine, read, compiled, Draft.addStep, inside]
  rfl

theorem read_statement (plain : StatementLine l.raw) (outside : d.opened = none) {d' : Draft}
    (added : d.addStatement l.text (l.at_ file) = .ok d') :
    Progress.read c file ⟨ws, some d⟩ l = .ok ⟨ws, some d'⟩ := by
  rw [Progress.read, if_neg (show ¬ l.text = _ from plain.goesOn)]
  have noAction : ActionLine.parse l.text = .ok none := by
    rw [Line.text, ActionLine.parse_trim, plain.noAction]
  have noEnd : Text.after? "end ".toList l.text = none := plain.noEnd
  simp only [Draft.addLine, noAction, noEnd, outside, added]
  rfl

theorem read_end {word : String} (ends : Ends word l.raw) (other : word ≠ "workflow") {d' : Draft}
    (closed : d.close word (l.at_ file) = .ok d') :
    Progress.read c file ⟨ws, some d⟩ l = .ok ⟨ws, some d'⟩ := by
  obtain ⟨rest, found, named⟩ := ends.after
  rw [Progress.read, if_neg (show ¬ l.text = _ from ends.goesOn other)]
  have noAction : ActionLine.parse l.text = .ok none := by
    rw [Line.text, ActionLine.parse_trim, ends.noAction]
  have after : Text.after? "end ".toList l.text = some rest := found
  simp only [Draft.addLine, noAction, after, named, closed]
  rfl

/-- Reading action lines puts their steps into the open block. -/
theorem read_actions {actions : List Line} (act : ∀ l ∈ actions, l.Acts c file)
    (opened : OpenBlock) :
    actions.foldlM (Progress.read c file) ⟨ws, some { d with opened := some opened }⟩ =
      .ok ⟨ws, some { d with opened := some (opened.holding (Line.steps c file actions)) }⟩ := by
  induction actions generalizing opened with
  | nil => rfl
  | cons l rest ih =>
      obtain ⟨action, step, read, compiled⟩ := act l List.mem_cons_self
      rw [List.foldlM_cons, read_action rfl read compiled]
      have steps : Line.steps c file (l :: rest) = step :: Line.steps c file rest :=
        List.filterMap_cons_some (Line.step?_eq_some read compiled)
      rw [steps]
      exact ih (fun l mem => act l (List.mem_cons_of_mem _ mem)) _

end Progress
end Reading

open Draft (outlined outlined_concat)

section Completeness

variable {d d' : Draft} {l : Line}

theorem Progress.read_one (plain : StatementLine l.raw) (outside : d.opened = none)
    (added : d.addStatement l.text (l.at_ file) = .ok d') :
    [l].foldlM (Progress.read c file) ⟨ws, some d⟩ = .ok ⟨ws, some d'⟩ :=
  Except.foldlM_cons_ok (read_statement plain outside added) []

theorem Progress.read_setting {key : MetaKey} {value : List Char} {line : Line}
    (read : MetaKey.parse line.text = some (key, value))
    (added : (outlined c file header items).addMeta key value (line.at_ file) =
      .ok { outlined c file header items with
        workflow := (Outline.workflowOf c file header items).set (key, value) }) :
    [line].foldlM (Progress.read c file) ⟨ws, some (outlined c file header items)⟩ =
      .ok ⟨ws, some (outlined c file header (items ++ [.setting line]))⟩ := by
  rw [read_one (MetaKey.statement_of_parse read) rfl ((Draft.addStatement_keyed read).trans added),
    outlined_concat, Workflow.add, read]
  rfl

/-- Reading the lines between an opening and its end puts their steps into what was opened. -/
theorem Progress.read_enclosed {opening closing : Line} {actions : List Line} {opened : OpenBlock}
    {word : String} (plain : StatementLine opening.raw) (outside : d.opened = none)
    (act : ∀ l ∈ actions, l.Acts c file) {seen : List BlockName}
    (added : d.addStatement opening.text (opening.at_ file) =
      .ok { d with seen := seen, opened := some opened })
    (closes : Ends word closing.raw) (other : word ≠ "workflow")
    (closed : { d with
      seen := seen, opened := some (opened.holding (Line.steps c file actions)) }.close word
        (closing.at_ file) = .ok d') :
    (opening :: (actions ++ [closing])).foldlM (Progress.read c file) ⟨ws, some d⟩ =
      .ok ⟨ws, some d'⟩ := by
  rw [Except.foldlM_cons_ok (read_statement plain outside added),
    Except.foldlM_append_ok (read_actions (d := { d with seen := seen }) act opened),
    Except.foldlM_cons_ok (read_end closes other closed)]
  rfl

theorem Items.contains_vars {name : String} :
    Dict.contains (Outline.workflowOf c file header items).vars name = true ↔
      name ∈ (Items.vars items).map Prod.fst := by
  rw [Outline.workflowOf_vars, Dict.ofList, Dict.contains_insertAll]
  simp [Dict.contains, Dict.find?]

theorem Items.any_phases {name : String} :
    ((Outline.workflowOf c file header items).phases.any fun p => p.name == name) = true ↔
      name ∈ (Items.phases c file items).map Phase.name := by
  rw [Outline.workflowOf_phases]
  simp

/-- Reading the lines of an item puts the item into the workflow, if it repeats nothing. -/
theorem Progress.read_item {item : Item} (derives : item.Derives c file)
    (distinct : Items.Distinct c file (items ++ [item])) :
    item.lines.foldlM (Progress.read c file) ⟨ws, some (outlined c file header items)⟩ =
      .ok ⟨ws, some (outlined c file header (items ++ [item]))⟩ := by
  obtain ⟨-, newBlock, newVar, newPhase⟩ := Items.distinct_concat.mp distinct
  cases derives with
  | setting keyed known =>
      simp only [List.mem_cons, List.not_mem_nil, or_false] at known
      rcases known with rfl | rfl | rfl
      · exact read_setting (Line.parse_of_keyed .tags keyed) rfl
      · exact read_setting (Line.parse_of_keyed .locators keyed) rfl
      · exact read_setting (Line.parse_of_keyed .success keyed) rfl
  | failurePolicy keyed known =>
      refine read_setting (Line.parse_of_keyed .onPhaseFailure keyed) ?_
      simp only [List.mem_cons, List.not_mem_nil, or_false] at known
      rcases known with rfl | rfl <;> rfl
  | @declaration line name raw read word =>
      obtain ⟨value, parsed⟩ := Variable.parseValue_ok_iff.mpr word
      rw [parsed] at read
      have fresh : ¬ Dict.contains (outlined c file header items).workflow.vars name = true :=
        fun taken => newVar _ (Line.declared?_eq_some read) (Items.contains_vars.mp taken)
      have declared : (outlined c file header items).declare name value = .ok _ := if_neg fresh
      rw [Item.lines, read_one (Line.led_of_variable read).statement rfl
        ((Draft.addStatement_declared read).trans declared), outlined_concat, Workflow.add,
        Line.declared?_eq_some read]
      rfl
  | @block name opening closing actions opens act closes =>
      have fresh : ¬ (outlined c file header items).seen.contains name = true := by
        simpa [outlined] using newBlock name rfl
      refine read_enclosed (BlockName.statement opens) rfl act
        ((Draft.addStatement_block opens).trans (if_neg fresh)) closes (by cases name <;> decide) ?_
      rw [OpenBlock.holding_block, outlined_concat]
      simp only [Draft.close, OpenBlock.closingWord, if_true]
      cases name <;> rfl
  | @phase opening closing actions value phase keyed accepted filled act closes =>
      have read := Line.parse_of_keyed .phase keyed
      have held := Line.phase?_eq_some read accepted
      have named : ¬ ((outlined c file header items).workflow.phases.any
          fun p => p.name == phase.name) = true := fun taken =>
        newPhase { phase with steps := Line.steps c file actions } (by simp [Item.phase?, held])
          (Items.any_phases.mp taken)
      have opened : (outlined c file header items).addMeta .phase value (opening.at_ file) =
          .ok { outlined c file header items with opened := some (.phase phase) } := by
        simp only [Draft.addMeta, accepted]
        exact if_neg named
      refine read_enclosed (MetaKey.statement_of_parse read) rfl act
        ((Draft.addStatement_keyed read).trans opened) closes (by decide) ?_
      have some : (Line.steps c file actions).isEmpty = false := by
        have sources := congrArg List.length (Line.steps_sources act)
        rw [List.length_map, List.length_map] at sources
        rw [List.isEmpty_eq_false_iff, ← List.length_pos_iff, sources]
        exact List.length_pos_iff.mpr filled
      rw [OpenBlock.holding_phase, (Draft.bare_of_parseHeader accepted).1, List.nil_append,
        outlined_concat]
      simp only [Draft.close, OpenBlock.closingWord, if_true, some, Bool.false_eq_true, if_false,
        Workflow.add, Item.phase?, held]
      rfl

theorem Progress.read_items (before : List Item) (derive : ∀ item ∈ items, item.Derives c file)
    (distinct : Items.Distinct c file (before ++ items)) :
    (Items.lines items).foldlM (Progress.read c file)
        ⟨ws, some (outlined c file header before)⟩ =
      .ok ⟨ws, some (outlined c file header (before ++ items))⟩ := by
  induction items generalizing before with
  | nil =>
      rw [List.append_nil]
      rfl
  | cons item rest ih =>
      have split : before ++ item :: rest = before ++ [item] ++ rest := by simp
      rw [split] at distinct ⊢
      rw [Items.lines, List.flatMap_cons,
        Except.foldlM_append_ok (read_item (derive item List.mem_cons_self) distinct.left)]
      exact ih _ (fun item mem => derive item (List.mem_cons_of_mem _ mem)) distinct

theorem Progress.read_outline {o : Outline} (derives : o.Derives c file) :
    o.lines.foldlM (Progress.read c file) ⟨ws, none⟩ = .ok ⟨ws ++ [o.workflow c file], none⟩ := by
  obtain ⟨value, keyed, named⟩ := derives.header
  have read := Line.parse_of_keyed .workflow keyed
  have plain := MetaKey.statement_of_parse read
  have started : Progress.read c file ⟨ws, none⟩ o.header =
      .ok ⟨ws, some (outlined c file o.header [])⟩ := by
    have filled : (String.ofList (unquote value)).isEmpty = false := by
      simpa [String.isEmpty_iff] using named
    rw [Progress.read, if_neg (show ¬ o.header.text = _ from plain.goesOn)]
    simp only [startWorkflow, read, filled, Bool.false_eq_true, if_false, outlined,
      Outline.workflowOf, Line.workflowName]
    rfl
  have ended : Progress.read c file ⟨ws, some (outlined c file o.header o.items)⟩ o.ending =
      .ok ⟨ws ++ [o.workflow c file], none⟩ := by
    have phased : (outlined c file o.header o.items).workflow.phases ≠ [] := by
      rw [outlined, Outline.workflowOf_phases]
      exact derives.phased
    rw [Progress.read, if_pos derives.ending, Outline.workflow, ← Outline.workflowOf_undigested]
    simp only [Draft.finish_eq_ok.mpr ⟨rfl, phased, rfl⟩]
    rfl
  have filled : (Items.lines o.items).foldlM (Progress.read c file)
      ⟨ws, some (outlined c file o.header [])⟩ =
        .ok ⟨ws, some (outlined c file o.header o.items)⟩ :=
    read_items [] derives.items derives.distinct
  rw [Outline.lines, Except.foldlM_cons_ok started, Except.foldlM_append_ok filled,
    Except.foldlM_cons_ok ended]
  rfl

theorem Progress.read_outlines {os : List Outline} (derive : ∀ o ∈ os, o.Derives c file) :
    (os.flatMap Outline.lines).foldlM (Progress.read c file) ⟨ws, none⟩ =
      .ok ⟨ws ++ os.map (Outline.workflow c file), none⟩ := by
  induction os generalizing ws with
  | nil =>
      rw [List.map_nil, List.append_nil]
      rfl
  | cons o rest ih =>
      rw [List.flatMap_cons, Except.foldlM_append_ok (read_outline (derive o List.mem_cons_self)),
        ih fun o mem => derive o (List.mem_cons_of_mem _ mem)]
      simp

end Completeness

end Journey
