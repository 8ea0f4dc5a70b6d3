import Journey.Proofs.Compile.Line
import Journey.Proofs.Compile.Shown
import Journey.Proofs.Compile.Step
import Journey.Proofs.Compile.Word
import Journey.Proofs.Dict

/-!
The grammar of workflow text. An outline is a tree whose leaves are lines; which trees the grammar
derives is said line by line and item by item, with what must be distinct in a workflow, and each tree
denotes a workflow. That the compiler accepts these trees and no others is stated elsewhere.
-/

namespace Journey

namespace Line

/-- The line is the keyword, and then the value with any blanks around it. -/
def Keyed (word : String) (value : List Char) (l : Line) : Prop :=
  ∃ rest, l.text = word.toList ++ rest ∧ Text.trim rest = value

/-- The line is an action line of which the compiler can make a step. -/
def Acts (c : Compiler) (file : String) (l : Line) : Prop :=
  ∃ (action : ActionLine) (step : Step), ActionLine.parse l.text = .ok (some action) ∧
    c.compileStep action (l.at_ file) = .ok step

def step? (c : Compiler) (file : String) (l : Line) : Option Step :=
  match ActionLine.parse l.text with
  | .ok (some action) => (c.compileStep action (l.at_ file)).toOption
  | _ => none

def phase? (file : String) (l : Line) : Option Phase :=
  match MetaKey.parse l.text with
  | some (.phase, value) => (Phase.parseHeader value (l.at_ file)).toOption
  | _ => none

def declared? (l : Line) : Option (String × Value) :=
  match Variable.parseLine l.text with
  | some (name, .ok value) => some (name, value)
  | _ => none

def workflowName (l : Line) : String :=
  match MetaKey.parse l.text with
  | some (_, value) => String.ofList (unquote value)
  | none => ""

def steps (c : Compiler) (file : String) (ls : List Line) : List Step := ls.filterMap (step? c file)

theorem parse_of_keyed (key : MetaKey) {value : List Char} {l : Line} (h : l.Keyed key.word value) :
    MetaKey.parse l.text = some (key, value) := by
  obtain ⟨rest, lead, rfl⟩ := h
  rw [lead, MetaKey.parse_append]

theorem keyed_of_parse {key : MetaKey} {value : List Char} {l : Line}
    (h : MetaKey.parse l.text = some (key, value)) : l.Keyed key.word value :=
  MetaKey.lead_of_parse h

theorem statement_of_keyed (key : MetaKey) {value : List Char} {l : Line}
    (h : l.Keyed key.word value) : StatementLine l.raw :=
  MetaKey.statement_of_parse (parse_of_keyed key h)

theorem led_of_action {l : Line} {action : ActionLine}
    (read : ActionLine.parse l.text = .ok (some action)) : ActionLine.Led l.raw := by
  rw [text, ActionLine.parse_trim] at read
  exact ActionLine.led_of_parse (by simp [read])

theorem led_of_variable {l : Line} {found : String × Except TokenError Value}
    (read : Variable.parseLine l.text = some found) : Variable.Led l.raw := by
  rw [text, Variable.parseLine_trim] at read
  exact Variable.led_of_parseLine (by simp [read])

theorem step?_eq_some {c : Compiler} {file : String} {l : Line} {action : ActionLine} {step : Step}
    (read : ActionLine.parse l.text = .ok (some action))
    (compiled : c.compileStep action (l.at_ file) = .ok step) : l.step? c file = some step := by
  simp [step?, read, compiled, Except.toOption]

theorem phase?_eq_some {file : String} {l : Line} {value : List Char} {phase : Phase}
    (read : MetaKey.parse l.text = some (.phase, value))
    (header : Phase.parseHeader value (l.at_ file) = .ok phase) : l.phase? file = some phase := by
  simp [phase?, read, header, Except.toOption]

theorem declared?_eq_some {l : Line} {name : String} {value : Value}
    (read : Variable.parseLine l.text = some (name, .ok value)) :
    l.declared? = some (name, value) := by
  simp [declared?, read]

/-- Every action line gives one step, which knows the line. -/
theorem steps_sources {c : Compiler} {file : String} {ls : List Line}
    (act : ∀ l ∈ ls, l.Acts c file) : (steps c file ls).map Step.source = ls.map (at_ file) := by
  induction ls with
  | nil => rfl
  | cons l rest ih =>
      obtain ⟨action, step, read, compiled⟩ := act l List.mem_cons_self
      obtain ⟨_, made⟩ := Compiler.compiles_of_compileStep compiled
      rw [steps, List.filterMap_cons_some (step?_eq_some read compiled), List.map_cons,
        List.map_cons, made.source]
      exact congrArg _ (ih fun l mem => act l (List.mem_cons_of_mem _ mem))

end Line

/-- A part of a workflow: one line, or the lines of a block or of a phase. -/
inductive Item where
  | setting (line : Line)
  | declaration (line : Line)
  | block (name : BlockName) (opening : Line) (actions : List Line) (closing : Line)
  | phase (opening : Line) (actions : List Line) (closing : Line)

namespace Item

def lines : Item → List Line
  | setting line | declaration line => [line]
  | block _ opening actions closing | phase opening actions closing =>
      opening :: (actions ++ [closing])

def blockName? : Item → Option BlockName
  | block name _ _ _ => some name
  | setting _ | declaration _ | phase _ _ _ => none

def declared? : Item → Option (String × Value)
  | declaration line => line.declared?
  | setting _ | block _ _ _ _ | phase _ _ _ => none

def phase? (c : Compiler) (file : String) : Item → Option Phase
  | phase opening actions _ =>
      (opening.phase? file).map fun phase => { phase with steps := Line.steps c file actions }
  | setting _ | declaration _ | block _ _ _ _ => none

/-- The items of the grammar. -/
inductive Derives (c : Compiler) (file : String) : Item → Prop
  | setting {line : Line} {word : String} {value : List Char} (keyed : line.Keyed word value)
      (known : word ∈ ["tags:", "locators:", "success:"]) : Derives c file (setting line)
  | failurePolicy {line : Line} {word : String} (keyed : line.Keyed "on_phase_failure:" word.toList)
      (known : word ∈ ["abort", "continue"]) : Derives c file (setting line)
  | declaration {line : Line} {name : String} {raw : List Char}
      (read : Variable.parseLine line.text = some (name, Variable.parseValue raw))
      (word : Variable.OneWord (Text.trim raw)) : Derives c file (declaration line)
  | block {name : BlockName} {opening closing : Line} {actions : List Line}
      (opens : opening.text = (name.text ++ ":").toList) (act : ∀ l ∈ actions, l.Acts c file)
      (closes : Ends name.text closing.raw) : Derives c file (block name opening actions closing)
  | phase {opening closing : Line} {actions : List Line} {value : List Char} {phase : Phase}
      (keyed : opening.Keyed "phase:" value)
      (header : Phase.parseHeader value (opening.at_ file) = .ok phase)
      (filled : actions ≠ []) (act : ∀ l ∈ actions, l.Acts c file)
      (closes : Ends "phase" closing.raw) : Derives c file (.phase opening actions closing)

end Item

/-- What the workflow gains by a setting line. -/
def Workflow.set (w : Workflow) : MetaKey × List Char → Workflow
  | (.tags, value) => { w with tags := parseTags value }
  | (.locators, value) => { w with locatorPack := some (String.ofList (unquote value)) }
  | (.success, value) => { w with successCriteria := some (String.ofList (unquote value)) }
  | (.onPhaseFailure, value) =>
      { w with onPhaseFailure := PhaseFailurePolicy.ofName? (String.ofList value) }
  | (.workflow, _) | (.phase, _) => w

def Workflow.fill (w : Workflow) (steps : List Step) : BlockName → Workflow
  | .setup => { w with setup := steps }
  | .recovery => { w with recovery := steps }
  | .teardown => { w with teardown := steps }

/-- The workflow with the item put in. -/
def Workflow.add (c : Compiler) (file : String) (w : Workflow) (item : Item) : Workflow :=
  match item with
  | .setting line =>
      match MetaKey.parse line.text with
      | some setting => w.set setting
      | none => w
  | .declaration line =>
      match line.declared? with
      | some (name, value) => { w with vars := Dict.insert name value w.vars }
      | none => w
  | .block name _ actions _ => w.fill (Line.steps c file actions) name
  | .phase _ _ _ => { w with phases := w.phases ++ (item.phase? c file).toList }

namespace Workflow

variable (c : Compiler) (file : String) (w : Workflow)

/-- A setting line leaves the variables and the steps of the workflow alone. -/
theorem add_setting (line : Line) :
    ∃ tags pack criteria policy, w.add c file (.setting line) =
      { w with
        tags := tags, locatorPack := pack, successCriteria := criteria, onPhaseFailure := policy } := by
  cases read : MetaKey.parse line.text with
  | none => exact ⟨w.tags, w.locatorPack, w.successCriteria, w.onPhaseFailure, by rw [add, read]⟩
  | some setting =>
      obtain ⟨key, value⟩ := setting
      simp only [add, read]
      cases key <;> exact ⟨_, _, _, _, rfl⟩

theorem add_declaration (line : Line) :
    w.add c file (.declaration line) =
      { w with vars := Dict.insertAll w.vars line.declared?.toList } := by
  rw [add]
  cases line.declared? <;> rfl

theorem add_phases (item : Item) :
    (w.add c file item).phases = w.phases ++ (item.phase? c file).toList := by
  cases item with
  | setting line =>
      obtain ⟨_, _, _, _, set⟩ := add_setting c file w line
      simp [set, Item.phase?]
  | declaration line => simp [add_declaration, Item.phase?]
  | block name opening actions closing => cases name <;> simp [add, fill, Item.phase?]
  | phase opening actions closing => rfl

theorem add_vars (item : Item) :
    (w.add c file item).vars = Dict.insertAll w.vars item.declared?.toList := by
  cases item with
  | setting line =>
      obtain ⟨_, _, _, _, set⟩ := add_setting c file w line
      rw [set]
      rfl
  | declaration line => rw [add_declaration, Item.declared?]
  | block name opening actions closing => cases name <;> rfl
  | phase opening actions closing => rfl

/-- Where a workflow begins is settled by its header, and its digest is left out. -/
theorem add_origin (item : Item) :
    (w.add c file item).source = w.source ∧ (w.add c file item).digest = w.digest := by
  cases item with
  | setting line =>
      obtain ⟨_, _, _, _, set⟩ := add_setting c file w line
      rw [set]
      exact ⟨rfl, rfl⟩
  | declaration line =>
      rw [add_declaration]
      exact ⟨rfl, rfl⟩
  | block name opening actions closing => cases name <;> exact ⟨rfl, rfl⟩
  | phase opening actions closing => exact ⟨rfl, rfl⟩

end Workflow

namespace Items

variable (c : Compiler) (file : String)

def lines (items : List Item) : List Line := items.flatMap Item.lines

def blocks (items : List Item) : List BlockName := items.filterMap Item.blockName?

/-- The variables in the order in which they are declared. -/
def vars (items : List Item) : List (String × Value) := items.filterMap Item.declared?

def phases (items : List Item) : List Phase := items.filterMap (Item.phase? c file)

/-- No block, no variable and no name of a phase comes twice. -/
@[mk_iff distinct_iff]
structure Distinct (items : List Item) : Prop where
  blocks : (blocks items).Nodup
  vars : ((vars items).map Prod.fst).Nodup
  phases : ((phases c file items).map Phase.name).Nodup

variable {c : Compiler} {file : String} {items : List Item}

theorem nodup_filterMap_concat {α β : Type} {f : α → Option β} {xs : List α} {x : α} :
    ((xs ++ [x]).filterMap f).Nodup ↔
      (xs.filterMap f).Nodup ∧ ∀ y, f x = some y → y ∉ xs.filterMap f := by
  cases held : f x with
  | none => simp [held]
  | some y =>
      rw [List.filterMap_append, List.filterMap_cons_some held, List.filterMap_nil,
        List.nodup_append]
      generalize xs.filterMap f = ys
      simp only [List.nodup_cons, List.not_mem_nil, not_false_eq_true, List.nodup_nil, and_self,
        true_and, List.mem_singleton, forall_eq, Option.some.injEq, forall_eq', ne_eq]
      exact and_congr_right fun _ => ⟨fun apart mem => apart y mem rfl, fun fresh z mem same =>
        fresh (same ▸ mem)⟩

theorem distinct_concat {item : Item} :
    Distinct c file (items ++ [item]) ↔ Distinct c file items ∧
      (∀ name, item.blockName? = some name → name ∉ blocks items) ∧
      (∀ entry, item.declared? = some entry → entry.1 ∉ (vars items).map Prod.fst) ∧
      ∀ phase, item.phase? c file = some phase →
        phase.name ∉ (phases c file items).map Phase.name := by
  rw [distinct_iff, distinct_iff]
  simp only [blocks, vars, phases, List.map_filterMap, nodup_filterMap_concat,
    Option.map_eq_some_iff, forall_exists_index, and_imp, forall_apply_eq_imp_iff₂]
  tauto

namespace Distinct

variable (h : Distinct c file items)

include h

theorem add_setting (line : Line) : Distinct c file (items ++ [.setting line]) :=
  distinct_concat.mpr ⟨h, by simp [Item.blockName?], by simp [Item.declared?], by simp [Item.phase?]⟩

theorem add_declaration {line : Line} {name : String} {value : Value}
    (held : line.declared? = some (name, value)) (fresh : name ∉ (Items.vars items).map Prod.fst) :
    Distinct c file (items ++ [.declaration line]) := by
  refine distinct_concat.mpr ⟨h, by simp [Item.blockName?], fun entry same => ?_, by simp [Item.phase?]⟩
  obtain rfl := Option.some.inj (held.symm.trans same)
  exact fresh

theorem add_block {name : BlockName} (fresh : name ∉ Items.blocks items) (opening : Line)
    (actions : List Line) (closing : Line) :
    Distinct c file (items ++ [.block name opening actions closing]) := by
  refine distinct_concat.mpr ⟨h, fun other same => ?_, by simp [Item.declared?], by simp [Item.phase?]⟩
  obtain rfl := Option.some.inj same
  exact fresh

theorem add_phase {opening : Line} {phase : Phase} (held : opening.phase? file = some phase)
    (fresh : phase.name ∉ (Items.phases c file items).map Phase.name) (actions : List Line)
    (closing : Line) : Distinct c file (items ++ [.phase opening actions closing]) := by
  refine distinct_concat.mpr ⟨h, by simp [Item.blockName?], by simp [Item.declared?],
    fun other same => ?_⟩
  rw [Item.phase?, held] at same
  obtain rfl := Option.some.inj same
  exact fresh

end Distinct

theorem Distinct.left {more : List Item} (h : Distinct c file (items ++ more)) :
    Distinct c file items := by
  obtain ⟨hb, hv, hp⟩ := h
  simp only [Items.blocks, Items.vars, Items.phases, List.filterMap_append, List.map_append]
    at hb hv hp
  exact ⟨(List.nodup_append.mp hb).1, (List.nodup_append.mp hv).1, (List.nodup_append.mp hp).1⟩

end Items

/-- A workflow as it stands in the text. -/
structure Outline where
  header : Line
  items : List Item
  ending : Line

namespace Outline

def lines (o : Outline) : List Line := o.header :: (Items.lines o.items ++ [o.ending])

/-- The workflows of the grammar. -/
structure Derives (c : Compiler) (file : String) (o : Outline) : Prop where
  header : ∃ value, o.header.Keyed "workflow:" value ∧ unquote value ≠ []
  items : ∀ item ∈ o.items, item.Derives c file
  ending : o.ending.text = "end workflow".toList
  phased : Items.phases c file o.items ≠ []
  distinct : Items.Distinct c file o.items

/-- The workflow that a header and items make, but for its digest. -/
def workflowOf (c : Compiler) (file : String) (header : Line) (items : List Item) : Workflow :=
  items.foldl (Workflow.add c file) (Draft.begin header.workflowName (header.at_ file) "").workflow

def workflow (c : Compiler) (file : String) (o : Outline) : Workflow :=
  workflowOf c file o.header o.items

theorem workflowOf_concat (c : Compiler) (file : String) (header : Line) (items : List Item)
    (item : Item) :
    workflowOf c file header (items ++ [item]) =
      (workflowOf c file header items).add c file item := by
  simp [workflowOf]

theorem phases_foldl (c : Compiler) (file : String) (items : List Item) (w : Workflow) :
    (items.foldl (Workflow.add c file) w).phases = w.phases ++ Items.phases c file items := by
  induction items generalizing w with
  | nil => simp [Items.phases]
  | cons item rest ih =>
      rw [List.foldl_cons, ih, Workflow.add_phases, List.append_assoc]
      cases held : item.phase? c file <;> simp [Items.phases, held]

theorem vars_foldl (c : Compiler) (file : String) (items : List Item) (w : Workflow) :
    (items.foldl (Workflow.add c file) w).vars = Dict.insertAll w.vars (Items.vars items) := by
  induction items generalizing w with
  | nil => rfl
  | cons item rest ih =>
      rw [List.foldl_cons, ih, Workflow.add_vars]
      cases held : item.declared? <;> simp [Items.vars, held, Dict.insertAll]

theorem origin_foldl (c : Compiler) (file : String) (items : List Item) (w : Workflow) :
    (items.foldl (Workflow.add c file) w).source = w.source ∧
      (items.foldl (Workflow.add c file) w).digest = w.digest := by
  induction items generalizing w with
  | nil => exact ⟨rfl, rfl⟩
  | cons item rest ih =>
      obtain ⟨source, digest⟩ := Workflow.add_origin c file w item
      rw [List.foldl_cons, ← source, ← digest]
      exact ih _

theorem workflowOf_undigested (c : Compiler) (file : String) (header : Line) (items : List Item) :
    (workflowOf c file header items).undigested = workflowOf c file header items := by
  rw [Workflow.undigested, ← show (workflowOf c file header items).digest = "" from
    (origin_foldl c file items _).2]

theorem workflowOf_phases (c : Compiler) (file : String) (header : Line) (items : List Item) :
    (workflowOf c file header items).phases = Items.phases c file items :=
  phases_foldl c file items _

theorem workflowOf_vars (c : Compiler) (file : String) (header : Line) (items : List Item) :
    (workflowOf c file header items).vars = Dict.ofList (Items.vars items) :=
  vars_foldl c file items _

end Outline
end Journey
