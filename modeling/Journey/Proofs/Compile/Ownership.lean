import Journey.Proofs.Compile.Acceptance
import Journey.Proofs.Compile.Purity
import Journey.Proofs.Compile.Span

/-!
Every step has one owner. The steps of a compiled workflow are the action lines between its header and
its end, each once and as its own line reads, and every block and phase holds its steps in the order of
the text. What the steps then do is a matter of the engine.
-/

namespace Journey

variable {c : Compiler} {file : String}

namespace Line

def isAction (l : Line) : Bool :=
  match ActionLine.parse l.text with
  | .ok (some _) => true
  | _ => false

theorem isAction_iff {l : Line} :
    l.isAction = true ↔ ∃ action, ActionLine.parse l.text = .ok (some action) := by
  simp only [isAction]
  split
  case h_1 action read => exact ⟨fun _ => ⟨action, read⟩, fun _ => rfl⟩
  case h_2 other => exact ⟨nofun, fun ⟨action, read⟩ => absurd read (other action)⟩

theorem isShown_of_isAction {l : Line} (h : l.isAction = true) : l.isShown = true := by
  obtain ⟨action, read⟩ := isAction_iff.mp h
  simp [isShown, text, (led_of_action read).inner.shown]

theorem not_isAction {l : Line} (h : ActionLine.parse l.raw = .ok none) : l.isAction = false := by
  rw [← ActionLine.parse_trim, show Text.trim l.raw = l.text from rfl] at h
  simp [isAction, h]

theorem filter_isAction_of_acts {ls : List Line} (act : ∀ l ∈ ls, l.Acts c file) :
    ls.filter isAction = ls := by
  refine List.filter_eq_self.mpr fun l mem => ?_
  obtain ⟨action, _, read, -⟩ := act l mem
  exact isAction_iff.mpr ⟨action, read⟩

end Line

namespace Item

def actions : Item → List Line
  | block _ _ actions _ | phase _ actions _ => actions
  | setting _ | declaration _ => []

def steps (c : Compiler) (file : String) (item : Item) : List Step := Line.steps c file item.actions

variable {item : Item}

theorem Derives.act (h : item.Derives c file) : ∀ l ∈ item.actions, l.Acts c file := by
  cases h with
  | setting _ _ | failurePolicy _ _ | declaration _ _ => exact List.forall_mem_nil _
  | block _ act _ | phase _ _ _ act _ => exact act

/-- The lines of an item are a statement, and then perhaps actions and an end. -/
theorem Derives.shape (h : item.Derives c file) :
    ∃ opening rest, item.lines = opening :: rest ∧ StatementLine opening.raw ∧
      (rest = [] ∧ item.actions = [] ∨ ∃ closing word,
        rest = item.actions ++ [closing] ∧ Ends word closing.raw ∧ word ≠ "workflow") := by
  cases h with
  | setting keyed known =>
      simp only [List.mem_cons, List.not_mem_nil, or_false] at known
      refine ⟨_, [], rfl, ?_, .inl ⟨rfl, rfl⟩⟩
      rcases known with rfl | rfl | rfl
      · exact Line.statement_of_keyed .tags keyed
      · exact Line.statement_of_keyed .locators keyed
      · exact Line.statement_of_keyed .success keyed
  | failurePolicy keyed known =>
      exact ⟨_, [], rfl, Line.statement_of_keyed .onPhaseFailure keyed, .inl ⟨rfl, rfl⟩⟩
  | @declaration line name raw read word =>
      exact ⟨line, [], rfl, (Line.led_of_variable read).statement, .inl ⟨rfl, rfl⟩⟩
  | @block name opening closing actions opens act closes =>
      exact ⟨opening, _, rfl, BlockName.statement opens, .inr ⟨closing, name.text, rfl, closes, by
        cases name <;> decide⟩⟩
  | phase keyed header filled act closes =>
      exact ⟨_, _, rfl, Line.statement_of_keyed .phase keyed, .inr ⟨_, _, rfl, closes, by decide⟩⟩

theorem Derives.filter_isAction (h : item.Derives c file) :
    item.lines.filter Line.isAction = item.actions := by
  obtain ⟨opening, rest, lines, plain, tail⟩ := h.shape
  have noAction := Line.not_isAction plain.noAction
  rw [lines, List.filter_cons_of_neg (by simp [noAction])]
  rcases tail with ⟨rfl, none⟩ | ⟨closing, word, rfl, closes, -⟩
  · exact none.symm
  · rw [List.filter_append, Line.filter_isAction_of_acts h.act,
      List.filter_cons_of_neg (by simp [Line.not_isAction closes.noAction])]
    simp

theorem Derives.goesOn (h : item.Derives c file) :
    ∀ l ∈ item.lines, l.text ≠ "end workflow".toList := by
  obtain ⟨opening, rest, lines, plain, tail⟩ := h.shape
  rw [lines]
  refine List.forall_mem_cons.mpr ⟨plain.goesOn, ?_⟩
  rcases tail with ⟨rfl, -⟩ | ⟨closing, word, rfl, closes, other⟩
  · exact List.forall_mem_nil _
  · refine List.forall_mem_append.mpr ⟨fun l mem => ?_,
      List.forall_mem_singleton.mpr (closes.goesOn other)⟩
    obtain ⟨action, _, read, -⟩ := h.act l mem
    exact (Line.led_of_action read).inner.goesOn

end Item

/-- The steps of a block. -/
def Workflow.block (w : Workflow) : BlockName → List Step
  | .setup => w.setup
  | .recovery => w.recovery
  | .teardown => w.teardown

namespace Workflow

variable {w : Workflow} {item : Item}

theorem block_add (name : BlockName) :
    (w.add c file item).block name =
      if item.blockName? = some name then item.steps c file else w.block name := by
  cases item with
  | setting line =>
      obtain ⟨_, _, _, _, set⟩ := add_setting c file w line
      rw [set]
      cases name <;> rfl
  | declaration line =>
      rw [add_declaration]
      cases name <;> rfl
  | block other opening actions closing => cases name <;> cases other <;> rfl
  | phase opening actions closing => cases name <;> rfl

/-- An item brings its own steps into the workflow, if its block had none before. -/
theorem steps_add (free : ∀ name, item.blockName? = some name → w.block name = [])
    (derives : item.Derives c file) :
    (w.add c file item).steps.Perm (w.steps ++ item.steps c file) := by
  cases item with
  | setting line =>
      obtain ⟨_, _, _, _, set⟩ := add_setting c file w line
      rw [set]
      simp [steps, Item.steps, Item.actions, Line.steps]
  | declaration line =>
      rw [add_declaration]
      simp [steps, Item.steps, Item.actions, Line.steps]
  | block name opening actions closing =>
      have empty := free name rfl
      refine List.perm_iff_count.mpr fun s => ?_
      cases name <;>
        simp only [block] at empty <;>
        simp only [add, fill, steps, Item.steps, Item.actions, empty, List.count_append,
          List.count_nil] <;>
        omega
  | phase opening actions closing =>
      cases derives with
      | phase keyed header filled act closes =>
          have held := Line.phase?_eq_some (Line.parse_of_keyed .phase keyed) header
          refine List.perm_iff_count.mpr fun s => ?_
          simp only [add, steps, Item.phase?, held, Option.map_some, Option.toList_some, Item.steps,
            Item.actions, List.flatMap_append, List.flatMap_singleton, List.count_append]
          omega

end Workflow

namespace Outline

variable {header : Line} {items : List Item}

theorem block_workflowOf (name : BlockName) :
    (workflowOf c file header items).block name = [] ∨ ∃ item ∈ items,
      item.blockName? = some name ∧
        (workflowOf c file header items).block name = item.steps c file := by
  induction items using List.reverseRecOn with
  | nil => exact .inl (by cases name <;> rfl)
  | append_singleton items item ih =>
      rw [workflowOf_concat, Workflow.block_add]
      split
      case isTrue named => exact .inr ⟨item, by simp, named, rfl⟩
      case isFalse =>
        rcases ih with empty | ⟨owner, mem, named, held⟩
        · exact .inl empty
        · exact .inr ⟨owner, List.mem_append_left _ mem, named, held⟩

theorem steps_workflowOf (derive : ∀ item ∈ items, item.Derives c file)
    (distinct : (Items.blocks items).Nodup) :
    (workflowOf c file header items).steps.Perm (items.flatMap (Item.steps c file)) := by
  induction items using List.reverseRecOn with
  | nil => exact .refl _
  | append_singleton items item ih =>
      obtain ⟨earlier, last⟩ := List.forall_mem_append.mp derive
      obtain ⟨before, new⟩ := Items.nodup_filterMap_concat.mp distinct
      have free (name : BlockName) (held : item.blockName? = some name) :
          (workflowOf c file header items).block name = [] := by
        refine block_workflowOf name |>.resolve_right fun ⟨owner, mem, named, _⟩ => ?_
        exact new name held (List.mem_filterMap.mpr ⟨owner, mem, named⟩)
      rw [workflowOf_concat, List.flatMap_append, List.flatMap_singleton]
      exact (Workflow.steps_add free (List.forall_mem_singleton.mp last)).trans
        ((ih earlier before).append_right _)

end Outline

def Step.line (s : Step) : Nat := s.source.line

namespace Line

variable {ls : List Line}

/-- The action lines strictly between two lines. -/
def actionsBetween (ls : List Line) (a b : Line) : List Line := (between ls a b).filter isAction

theorem steps_lines (act : ∀ l ∈ ls, l.Acts c file) :
    (steps c file ls).map Step.line = ls.map number := by
  have sources := congrArg (List.map SourceRef.line) (steps_sources act)
  rwa [List.map_map, List.map_map] at sources

theorem Sorted.numbers (h : Sorted ls) : (ls.map number).Pairwise (· < ·) := List.pairwise_map.mpr h

theorem Sorted.actionsBetween (h : Sorted ls) (a b : Line) : Sorted (actionsBetween ls a b) :=
  (h.filter _).filter _

end Line

namespace Items

variable {items : List Item}

theorem filter_isAction (derive : ∀ item ∈ items, item.Derives c file) :
    (lines items).filter Line.isAction = items.flatMap Item.actions := by
  induction items with
  | nil => rfl
  | cons item rest ih =>
      obtain ⟨first, others⟩ := List.forall_mem_cons.mp derive
      rw [lines, List.flatMap_cons, List.filter_append, first.filter_isAction, List.flatMap_cons]
      exact congrArg _ (ih others)

theorem act (derive : ∀ item ∈ items, item.Derives c file) :
    ∀ l ∈ items.flatMap Item.actions, l.Acts c file := by
  intro l mem
  obtain ⟨item, owner, held⟩ := List.mem_flatMap.mp mem
  exact (derive item owner).act l held

theorem goesOn (derive : ∀ item ∈ items, item.Derives c file) :
    ∀ l ∈ lines items, l.text ≠ "end workflow".toList := by
  intro l mem
  obtain ⟨item, owner, held⟩ := List.mem_flatMap.mp mem
  exact (derive item owner).goesOn l held

theorem steps_eq : items.flatMap (Item.steps c file) =
    Line.steps c file (items.flatMap Item.actions) := by
  rw [Line.steps, List.filterMap_flatMap]
  rfl

theorem split_of_mem {item : Item} (mem : item ∈ items) :
    ∃ before after, lines items = before ++ (item.lines ++ after) := by
  obtain ⟨before, after, rfl⟩ := List.append_of_mem mem
  exact ⟨lines before, lines after, by simp [lines]⟩

end Items

/-- The workflow begins with the header, ends with the ending, and owns the action lines between. -/
structure Workflow.Owns (file : String) (ls : List Line) (w : Workflow) (header ending : Line) :
    Prop where
  begins : header ∈ ls ∧ w.source = header.at_ file ∧ ∃ value, header.Keyed "workflow:" value
  ends : Line.FirstAfter ls (fun l => l.text = "end workflow".toList) header ending
  injective : (w.steps.map Step.line).Nodup
  onto : ∀ n, n ∈ w.steps.map Step.line ↔ ∃ l ∈ Line.actionsBetween ls header ending, l.number = n
  blocks : ∀ name, ((w.block name).map Step.line).Pairwise (· < ·)
  phases : ∀ phase ∈ w.phases, (phase.steps.map Step.line).Pairwise (· < ·) ∧
    ∃ opening ∈ ls, phase.source = opening.at_ file ∧ (∃ value, opening.Keyed "phase:" value) ∧
      ∃ closing, Line.FirstAfter ls (fun l => Ends "phase" l.raw) opening closing ∧
        phase.steps.map Step.line = (Line.actionsBetween ls opening closing).map Line.number
  lines : ∀ s ∈ w.steps, ∃ l ∈ ls, s.source = l.at_ file ∧
    ∃ action, ActionLine.parse l.text = .ok (some action) ∧ s.Reads action

/-- Nothing that is owned is in the digest. -/
theorem Workflow.Owns.of_undigested {ls : List Line} {w : Workflow} {header ending : Line}
    (h : w.undigested.Owns file ls header ending) : w.Owns file ls header ending :=
  ⟨h.begins, h.ends, h.injective, h.onto, h.blocks, h.phases, h.lines⟩

namespace Outline

variable {o : Outline} {ls before after : List Line}

theorem source_workflowOf (header : Line) (items : List Item) :
    (workflowOf c file header items).source = header.at_ file :=
  (origin_foldl c file items _).1

section Place

variable (h : o.Derives c file) (sorted : Line.Sorted ls)
  (split : ls.filter Line.isShown = before ++ (o.lines ++ after))

include split in
theorem parted : ls.filter Line.isShown =
    before ++ o.header :: (Items.lines o.items ++ o.ending :: after) := by
  rw [split, lines]
  simp

include split in
theorem item_parted {item : Item} (mem : item ∈ o.items) :
    ∃ before after, ls.filter Line.isShown = before ++ (item.lines ++ after) := by
  obtain ⟨earlier, later, held⟩ := Items.split_of_mem mem
  exact ⟨before ++ o.header :: earlier, later ++ o.ending :: after, by
    rw [parted split, held]
    simp⟩

include h sorted split

theorem actionsBetween_eq :
    Line.actionsBetween ls o.header o.ending = o.items.flatMap Item.actions := by
  rw [Line.actionsBetween, Line.filter_between_shown sorted (parted split)
    fun _ => Line.isShown_of_isAction, Items.filter_isAction h.items]

theorem steps_lines : ((o.workflow c file).steps.map Step.line).Perm
    ((Line.actionsBetween ls o.header o.ending).map Line.number) := by
  rw [actionsBetween_eq h sorted split, ← Line.steps_lines (Items.act h.items), ← Items.steps_eq]
  exact (steps_workflowOf h.items h.distinct.blocks).map _

theorem item_steps_sorted {item : Item} (mem : item ∈ o.items) :
    ((item.steps c file).map Step.line).Pairwise (· < ·) := by
  obtain ⟨earlier, later, held⟩ := item_parted split mem
  rw [Item.steps, Line.steps_lines (h.items item mem).act]
  have shown : Line.Sorted (ls.filter Line.isShown) := sorted.filter _
  rw [held] at shown
  have own : Line.Sorted item.lines := (List.pairwise_append.mp (List.pairwise_append.mp shown).2.1).1
  rw [← (h.items item mem).filter_isAction]
  exact Line.Sorted.numbers (own.filter _)

theorem block_sorted (name : BlockName) :
    (((o.workflow c file).block name).map Step.line).Pairwise (· < ·) := by
  rw [workflow]
  rcases block_workflowOf (c := c) name with empty | ⟨item, mem, -, held⟩
  · rw [empty]
    exact .nil
  · rw [held]
    exact item_steps_sorted h sorted split mem

theorem phase_owns {phase : Phase} (mem : phase ∈ (o.workflow c file).phases) :
    (phase.steps.map Step.line).Pairwise (· < ·) ∧
      ∃ opening ∈ ls, phase.source = opening.at_ file ∧ (∃ value, opening.Keyed "phase:" value) ∧
        ∃ closing, Line.FirstAfter ls (fun l => Ends "phase" l.raw) opening closing ∧
          phase.steps.map Step.line = (Line.actionsBetween ls opening closing).map Line.number := by
  rw [workflow, workflowOf_phases] at mem
  obtain ⟨item, owner, held⟩ := List.mem_filterMap.mp mem
  have derives := h.items item owner
  cases derives with
  | setting _ _ | failurePolicy _ _ | declaration _ _ | block _ _ _ => cases held
  | @phase opening closing actions value phase keyed header filled act closes =>
      rw [Item.phase?, Line.phase?_eq_some (Line.parse_of_keyed .phase keyed) header] at held
      obtain rfl := Option.some.inj held
      obtain ⟨earlier, later, placed⟩ := item_parted split owner
      have parted : ls.filter Line.isShown =
          earlier ++ opening :: (actions ++ closing :: later) := by
        rw [placed, Item.lines]
        simp
      have inside : opening ∈ ls := by
        have shown : opening ∈ ls.filter Line.isShown := by
          rw [parted]
          simp
        exact (List.mem_filter.mp shown).1
      have own : Line.actionsBetween ls opening closing = actions := by
        rw [Line.actionsBetween, Line.filter_between_shown sorted parted
          fun _ => Line.isShown_of_isAction, Line.filter_isAction_of_acts act]
      have numbers : (Line.steps c file actions).map Step.line =
          (Line.actionsBetween ls opening closing).map Line.number := by
        rw [own, Line.steps_lines act]
      have noEnd : ∀ l ∈ actions, ¬ Ends "phase" l.raw := by
        intro l mem ends
        obtain ⟨action, _, read, -⟩ := act l mem
        rw [Line.text, ActionLine.parse_trim, ends.noAction] at read
        cases read
      refine ⟨numbers ▸ (sorted.actionsBetween opening closing).numbers, opening, inside,
        (Draft.bare_of_parseHeader header).2, ⟨value, keyed⟩, closing, ?_, numbers⟩
      refine Line.firstAfter_of_split sorted parted (fun l ends => ?_) closes noEnd
      simp [Line.isShown, Line.text, ends.shown]

theorem owns : (o.workflow c file).Owns file ls o.header o.ending := by
  obtain ⟨value, keyed, -⟩ := h.header
  have numbers := steps_lines h sorted split
  have inside : ∀ l ∈ o.lines, l ∈ ls := fun l mem => by
    have shown : l ∈ ls.filter Line.isShown := by
      rw [split]
      simp [mem]
    exact (List.mem_filter.mp shown).1
  refine ⟨⟨inside _ (by simp [lines]), source_workflowOf o.header o.items, value, keyed⟩, ?_, ?_,
    fun n => ?_, block_sorted h sorted split, fun phase => phase_owns h sorted split, fun s mem => ?_⟩
  · refine Line.firstAfter_of_split sorted (parted split) (fun l ends => ?_) h.ending
      (Items.goesOn h.items)
    simp [Line.isShown, ends, Progress.isIgnored]
  · refine numbers.nodup_iff.mpr ?_
    exact (sorted.actionsBetween _ _).numbers.imp Nat.ne_of_lt
  · rw [numbers.mem_iff, List.mem_map]
  · have made := (steps_workflowOf h.items h.distinct.blocks).mem_iff.mp mem
    rw [Items.steps_eq, Line.steps, List.mem_filterMap] at made
    obtain ⟨l, mine, made⟩ := made
    obtain ⟨action, step, read, compiled⟩ := Items.act h.items l mine
    obtain rfl := Option.some.inj ((Line.step?_eq_some read compiled).symm.trans made)
    obtain ⟨_, compiles⟩ := Compiler.compiles_of_compileStep compiled
    rw [← actionsBetween_eq h sorted split] at mine
    have here : l ∈ ls := (List.mem_filter.mp (List.mem_filter.mp mine).1).1
    exact ⟨l, here, compiles.source, action, read, compiles.reads⟩

end Place

end Outline

namespace Compiler

/-- Every workflow that is compiled stands in the text as an outline. -/
theorem outline_of_compileAll {c : Compiler} {text file : String} {ws : List Workflow}
    (compiled : c.compileAll text file = .ok ws) {w : Workflow} (mem : w ∈ ws) :
    ∃ o : Outline, o.Derives c file ∧ w.undigested = o.workflow c file ∧ ∃ before after,
      (Line.ofText text).filter Line.isShown = before ++ (o.lines ++ after) := by
  have read := (compileLines_iff text (ws.map Workflow.undigested)).mp
    ⟨ws, compileLines_of_compileAll compiled, rfl⟩
  obtain ⟨os, ⟨derive, whole⟩, same⟩ := Progress.foldlM_read_iff.mp read
  have built : w.undigested ∈ os.map (Outline.workflow c file) := same ▸ List.mem_map_of_mem mem
  obtain ⟨o, owner, held⟩ := List.mem_map.mp built
  obtain ⟨before, after, rfl⟩ := List.append_of_mem owner
  refine ⟨o, derive o owner, held.symm, before.flatMap Outline.lines,
    after.flatMap Outline.lines, ?_⟩
  rw [← whole]
  simp

/-- No phase of a compiled workflow is empty. -/
theorem compileAll_filled {c : Compiler} {text file : String} {ws : List Workflow}
    (compiled : c.compileAll text file = .ok ws) {w : Workflow} (mem : w ∈ ws) :
    ∀ phase ∈ w.phases, phase.steps ≠ [] := by
  obtain ⟨o, derives, held, -⟩ := outline_of_compileAll compiled mem
  intro phase owned
  have listed : phase ∈ Items.phases c file o.items := by
    rw [← Outline.workflowOf_phases c file o.header]
    exact congrArg Workflow.phases held ▸ owned
  obtain ⟨item, among, made⟩ := List.mem_filterMap.mp listed
  cases derives.items item among with
  | setting _ _ | failurePolicy _ _ | declaration _ _ | block _ _ _ => cases made
  | phase keyed header filled act closes =>
      obtain ⟨_, -, rfl⟩ := Option.map_eq_some_iff.mp made
      intro none
      have sources := Line.steps_sources act
      rw [show Line.steps c file _ = [] from none] at sources
      exact filled (List.map_eq_nil_iff.mp sources.symm)

/-- Every workflow that is compiled owns the action lines of its part of the text: each step is one of
them as it reads, and each of them is one step, in the block or the phase around it. -/
theorem compileAll_owns (c : Compiler) (text file : String) {ws : List Workflow}
    (compiled : c.compileAll text file = .ok ws) {w : Workflow} (mem : w ∈ ws) :
    ∃ header ending, w.Owns file (Line.ofText text) header ending := by
  obtain ⟨o, derives, held, _, _, split⟩ := outline_of_compileAll compiled mem
  have owns := Outline.owns derives (Line.sorted_ofText text) split
  rw [← held] at owns
  exact ⟨o.header, o.ending, owns.of_undigested⟩

/-- One step of the setup and one of a phase, with a comment between them. -/
def greeting : String :=
  "workflow: hi\nsetup:\ndo enter\nend setup\n# then\nphase: one\ndo greet\nend phase\nend workflow"

theorem compileAll_greeting_owned : ∃ w,
    (⟨.empty, none, false⟩ : Compiler).compileAll greeting "page.flow" = .ok [w] ∧
      ∃ header ending, w.Owns "page.flow" (Line.ofText greeting) header ending := by
  have one : ((⟨.empty, none, false⟩ : Compiler).compileAll greeting "page.flow").toOption.map
      (List.map Workflow.name) = some ["hi"] := by decide
  obtain ⟨w, compiled, -⟩ := Except.ok_of_toOption_singleton one
  exact ⟨w, compiled, compileAll_owns _ _ _ compiled List.mem_cons_self⟩

end Compiler
end Journey
