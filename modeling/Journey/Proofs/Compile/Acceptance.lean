import Journey.Proofs.Compile.Reading

/-!
The compiler accepts the texts of its grammar and no others. The lines
of outlines are read to their end, and whatever has been read is the beginning of outlines.
Without the lint nothing else can fail; what the lint refuses is stated elsewhere.
-/

namespace Journey

variable {c : Compiler} {file : String} {header : Line} {items : List Item} {ws : List Workflow}

open Draft (outlined outlined_concat)

section Soundness

/-- The lines behind a header make items, and the beginning of one more if a block is open. -/
inductive Draft.Outlines (c : Compiler) (file : String) (header : Line) :
    List Line → Draft → Prop
  | between {items : List Item} (derive : ∀ item ∈ items, item.Derives c file)
      (distinct : Items.Distinct c file items) :
      Outlines c file header (Items.lines items) (outlined c file header items)
  | block {items : List Item} {name : BlockName} {opening : Line} {actions : List Line}
      (derive : ∀ item ∈ items, item.Derives c file) (distinct : Items.Distinct c file items)
      (opens : opening.text = (name.text ++ ":").toList) (fresh : name ∉ Items.blocks items)
      (act : ∀ l ∈ actions, l.Acts c file) :
      Outlines c file header (Items.lines items ++ opening :: actions)
        { outlined c file header items with
          seen := name :: (Items.blocks items).reverse
          opened := some (.block name (Line.steps c file actions) (opening.at_ file)) }
  | phase {items : List Item} {opening : Line} {actions : List Line} {value : List Char}
      {phase : Phase} (derive : ∀ item ∈ items, item.Derives c file)
      (distinct : Items.Distinct c file items) (keyed : opening.Keyed "phase:" value)
      (accepted : Phase.parseHeader value (opening.at_ file) = .ok phase)
      (fresh : phase.name ∉ (Items.phases c file items).map Phase.name)
      (act : ∀ l ∈ actions, l.Acts c file) :
      Outlines c file header (Items.lines items ++ opening :: actions)
        { outlined c file header items with
          opened := some (.phase { phase with steps := Line.steps c file actions }) }

theorem Line.steps_concat {actions : List Line} {l : Line} {action : ActionLine} {step : Step}
    (read : ActionLine.parse l.text = .ok (some action))
    (compiled : c.compileStep action (l.at_ file) = .ok step) :
    Line.steps c file (actions ++ [l]) = Line.steps c file actions ++ [step] := by
  simp [Line.steps, Line.step?_eq_some read compiled]

theorem Items.lines_concat (item : Item) :
    Items.lines (items ++ [item]) = Items.lines items ++ item.lines := by
  simp [Items.lines]

variable {d d' : Draft} {l : Line} {ls : List Line}

theorem Draft.Outlines.add {item : Item} (derive : ∀ item ∈ items, item.Derives c file)
    (last : item.Derives c file) (distinct : Items.Distinct c file (items ++ [item]))
    (lines : ls = Items.lines items ++ item.lines)
    (same : d = outlined c file header (items ++ [item])) :
    Draft.Outlines c file header ls d := by
  rw [lines, same, ← Items.lines_concat]
  exact .between (List.forall_mem_append.mpr ⟨derive, List.forall_mem_singleton.mpr last⟩) distinct

theorem Draft.Outlines.set {key : MetaKey} {value : List Char}
    (derive : ∀ item ∈ items, item.Derives c file) (distinct : Items.Distinct c file items)
    (read : MetaKey.parse l.text = some (key, value)) (last : (Item.setting l).Derives c file) :
    Draft.Outlines c file header (Items.lines items ++ [l]) { outlined c file header items with
      workflow := (Outline.workflowOf c file header items).set (key, value) } := by
  refine .add derive last (distinct.add_setting l) rfl ?_
  rw [outlined_concat, Workflow.add, read]
  rfl

theorem Draft.Outlines.states (derive : ∀ item ∈ items, item.Derives c file)
    (distinct : Items.Distinct c file items)
    (h : (outlined c file header items).States l.text (l.at_ file) d') :
    Draft.Outlines c file header (Items.lines items ++ [l]) d' := by
  cases h with
  | block read fresh =>
      exact .block derive distinct read (by simpa [outlined] using fresh) (by simp)
  | @declared name value read fresh =>
      obtain ⟨raw, parsed⟩ := Variable.parseLine_value read
      have word : Variable.OneWord (Text.trim raw) :=
        Variable.parseValue_ok_iff.mp ⟨value, parsed.symm⟩
      have held := Line.declared?_eq_some read
      have new : name ∉ (Items.vars items).map Prod.fst := fun taken => by
        rw [outlined, Items.contains_vars.mpr taken] at fresh
        cases fresh
      have last : (Item.declaration l).Derives c file := .declaration (parsed ▸ read) word
      refine .add derive last (distinct.add_declaration held new) rfl ?_
      rw [outlined_concat, Workflow.add, held]
      rfl
  | tags read => exact .set derive distinct read (.setting (Line.keyed_of_parse read) (by decide))
  | locators read =>
      exact .set derive distinct read (.setting (Line.keyed_of_parse read) (by decide))
  | success read =>
      exact .set derive distinct read (.setting (Line.keyed_of_parse read) (by decide))
  | @failurePolicy value policy read known =>
      obtain ⟨word, rfl⟩ : ∃ word : String, value = word.toList := ⟨String.ofList value, by simp⟩
      rw [String.ofList_toList] at known
      have named : PhaseFailurePolicy.ofName? word = some policy := by
        simp only [PhaseFailurePolicy.parse] at known
        split at known
        case h_1 named => exact named.trans (congrArg some (Except.ok.inj known))
        case h_2 => cases known
      have allowed : word ∈ ["abort", "continue"] := by
        by_contra other
        simp only [List.mem_cons, List.not_mem_nil, or_false, not_or] at other
        rw [PhaseFailurePolicy.ofName?] at named
        · cases named
        · exact other.1
        · exact other.2
      have set : Draft.Outlines c file header (Items.lines items ++ [l]) _ :=
        .set derive distinct read (.failurePolicy (Line.keyed_of_parse read) allowed)
      rw [Workflow.set, String.ofList_toList, named] at set
      exact set
  | @phase value phase read accepted fresh =>
      have new : phase.name ∉ (Items.phases c file items).map Phase.name := fun taken => by
        rw [outlined, Items.any_phases.mpr taken] at fresh
        cases fresh
      have bare : phase = { phase with steps := Line.steps c file [] } := by
        rw [show Line.steps c file [] = phase.steps from (bare_of_parseHeader accepted).1.symm]
      rw [bare]
      exact .phase derive distinct (Line.keyed_of_parse read) accepted new (by simp)

/-- What a line adds to the beginning of an outline is again the beginning of one. -/
theorem Draft.Outlines.takes (h : Draft.Outlines c file header ls d)
    (takes : d.Takes c l.text (l.at_ file) d') : Draft.Outlines c file header (ls ++ [l]) d' := by
  cases takes with
  | @action action step opened read compiled inside =>
      have acts : l.Acts c file := ⟨action, step, read, compiled⟩
      cases h with
      | between derive distinct => cases inside
      | block derive distinct opens fresh act =>
          obtain rfl := Option.some.inj inside
          rw [List.append_assoc, OpenBlock.addStep, ← Line.steps_concat read compiled]
          exact .block derive distinct opens fresh
            (List.forall_mem_append.mpr ⟨act, List.forall_mem_singleton.mpr acts⟩)
      | @phase items _ _ _ phase derive distinct keyed accepted fresh act =>
          obtain rfl := Option.some.inj inside
          rw [List.append_assoc, OpenBlock.addStep, ← Line.steps_concat read compiled]
          have more := List.forall_mem_append.mpr ⟨act, List.forall_mem_singleton.mpr acts⟩
          exact @Draft.Outlines.phase c file header items _ _ _ phase derive distinct keyed accepted
            fresh more
  | @ending word d' read ends closes =>
      have ended : ∀ {name}, String.ofList (Text.trim word) = name → Ends name l.raw :=
        fun named => Ends.of_after ends named
      cases h with
      | between derive distinct => cases closes with | phase inside _ _ | block inside _ => cases inside
      | @block items name opening actions derive distinct opens fresh act =>
          cases closes with
          | phase inside _ _ => cases inside
          | block inside named =>
              obtain ⟨rfl, rfl, rfl⟩ := OpenBlock.block.inj (Option.some.inj inside)
              have last : (Item.block name opening actions l).Derives c file :=
                .block opens act (ended named)
              refine .add derive last (distinct.add_block fresh opening actions l)
                (by simp [Item.lines]) ?_
              rw [outlined_concat]
              cases name <;> rfl
      | @phase items opening actions value phase derive distinct keyed accepted fresh act =>
          cases closes with
          | block inside _ => cases inside
          | phase inside named filled =>
              obtain rfl := OpenBlock.phase.inj (Option.some.inj inside)
              have held := Line.phase?_eq_some (Line.parse_of_keyed .phase keyed) accepted
              have some : actions ≠ [] := by
                rintro rfl
                cases filled
              have last : (Item.phase opening actions l).Derives c file :=
                .phase keyed accepted some act (ended named)
              refine .add derive last (distinct.add_phase held fresh actions l)
                (by simp [Item.lines]) ?_
              rw [outlined_concat, Workflow.add, Item.phase?, held]
              rfl
  | statement read noEnd outside states =>
      cases h with
      | between derive distinct => exact .states derive distinct states
      | block derive distinct opens fresh act => cases outside
      | phase derive distinct keyed accepted fresh act => cases outside

/-- The lines read so far are whole outlines, and the beginning of one more inside a workflow. -/
inductive Progress.Outlined (c : Compiler) (file : String) : List Line → Progress → Prop
  | outside {os : List Outline} (derive : ∀ o ∈ os, o.Derives c file) :
      Outlined c file (os.flatMap Outline.lines) ⟨os.map (Outline.workflow c file), none⟩
  | inside {os : List Outline} {header : Line} {value : List Char} {ls : List Line} {d : Draft}
      (derive : ∀ o ∈ os, o.Derives c file) (keyed : header.Keyed "workflow:" value)
      (named : unquote value ≠ []) (outlines : d.Outlines c file header ls) :
      Outlined c file (os.flatMap Outline.lines ++ header :: ls)
        ⟨os.map (Outline.workflow c file), some d⟩

theorem Progress.Outlined.begun {os : List Outline} {p : Progress}
    (derive : ∀ o ∈ os, o.Derives c file)
    (h : Progress.read c file ⟨os.map (Outline.workflow c file), none⟩ l = .ok p) :
    Progress.Outlined c file (os.flatMap Outline.lines ++ [l]) p := by
  simp only [Progress.read] at h
  split at h
  case isTrue => cases h
  case isFalse =>
    obtain ⟨q, started, rfl⟩ := Except.ok_of_map h
    simp only [startWorkflow] at started
    split at started
    case h_2 => cases started
    case h_1 value read =>
      split at started
      case isTrue => cases started
      case isFalse filled =>
        obtain rfl := Except.ok.inj started
        have named : unquote value ≠ [] := by simpa [String.isEmpty_iff] using filled
        have empty : Draft.Outlines c file l [] (outlined c file l []) :=
          @Draft.Outlines.between c file l [] (by simp)
            ⟨List.nodup_nil, List.nodup_nil, List.nodup_nil⟩
        have header : l.workflowName = String.ofList (unquote value) := by
          rw [Line.workflowName, read]
        rw [outlined, Outline.workflowOf, header] at empty
        exact .inside derive (Line.keyed_of_parse read) named empty

theorem Progress.Outlined.ended {os : List Outline} {header : Line} {value : List Char}
    {w : Workflow} (derive : ∀ o ∈ os, o.Derives c file) (keyed : header.Keyed "workflow:" value)
    (named : unquote value ≠ []) (outlines : d.Outlines c file header ls)
    (ending : l.text = "end workflow".toList) (done : d.finish (l.at_ file) = .ok w) :
    Progress.Outlined c file (os.flatMap Outline.lines ++ header :: (ls ++ [l]))
      ⟨os.map (Outline.workflow c file) ++ [w.undigested], none⟩ := by
  obtain ⟨outside, phased, rfl⟩ := Draft.finish_eq_ok.mp done
  cases outlines with
  | block _ _ _ _ _ | phase _ _ _ _ _ _ => cases outside
  | @between items items_derive distinct =>
      rw [outlined, Outline.workflowOf_phases] at phased
      have last : Outline.Derives c file ⟨header, items, l⟩ :=
        ⟨⟨value, keyed, named⟩, items_derive, ending, phased, distinct⟩
      have lines : (os ++ [(⟨header, items, l⟩ : Outline)]).flatMap Outline.lines =
          os.flatMap Outline.lines ++ header :: (Items.lines items ++ [l]) := by
        simp [Outline.lines]
      have whole : Progress.Outlined c file _ _ :=
        .outside (List.forall_mem_append.mpr ⟨derive, List.forall_mem_singleton.mpr last⟩)
      rw [lines, List.map_append, List.map_singleton, Outline.workflow,
        ← Outline.workflowOf_undigested] at whole
      exact whole

theorem Progress.Outlined.read {p p' : Progress} (h : Progress.Outlined c file ls p)
    (step : Progress.read c file p l = .ok p') : Progress.Outlined c file (ls ++ [l]) p' := by
  cases h with
  | outside derive => exact .begun derive step
  | inside derive keyed named outlines =>
      rw [List.append_assoc]
      simp only [Progress.read] at step
      split at step
      case isTrue ending =>
        obtain ⟨w, done, rfl⟩ := Except.ok_of_map step
        exact .ended derive keyed named outlines ending done
      case isFalse =>
        obtain ⟨d', added, rfl⟩ := Except.ok_of_map step
        exact .inside derive keyed named (outlines.takes (Draft.takes_of_addLine added))

end Soundness

/-- The lines of a file, which are those of workflows one after another. -/
def Outline.DeriveAll (c : Compiler) (file : String) (os : List Outline) (ls : List Line) : Prop :=
  (∀ o ∈ os, o.Derives c file) ∧ os.flatMap Outline.lines = ls

/-- Reading lines to the end of a workflow is deriving them from the grammar. -/
theorem Progress.foldlM_read_iff {ls : List Line} :
    ls.foldlM (Progress.read c file) .begin = .ok ⟨ws, none⟩ ↔
      ∃ os, Outline.DeriveAll c file os ls ∧ ws = os.map (Outline.workflow c file) := by
  constructor
  · intro run
    have start : Progress.Outlined c file [] .begin := @Progress.Outlined.outside c file [] (by simp)
    generalize whole : (⟨ws, none⟩ : Progress) = p at run
    have outlined := Except.foldlM_history (fun _ _ _ _ => Progress.Outlined.read) start run
    rw [List.nil_append] at outlined
    cases outlined with
    | inside derive keyed named outlines => cases whole
    | @outside os derive => exact ⟨os, ⟨derive, rfl⟩, (Progress.mk.inj whole).1⟩
  · rintro ⟨os, ⟨derive, rfl⟩, rfl⟩
    exact read_outlines derive

namespace Compiler

variable (registry : Registry) (profiles : Option (List String)) (text : String)

theorem compileLines_iff (built : List Workflow) :
    (∃ ws, c.compileLines file (Text.lines text.toList) = .ok ws ∧
        ws.map Workflow.undigested = built) ↔
      ((Line.ofText text).filter Line.isShown).foldlM (Progress.read c file) .begin =
        .ok ⟨built, none⟩ := by
  rw [show Progress.begin = Progress.begin.bare from rfl, Line.ofText, ← Progress.feedAll_read,
    compileLines]
  cases Progress.feedAll c file 1 (Text.lines text.toList) .begin with
  | error e => simp [Except.map]
  | ok p =>
      obtain ⟨finished, draft⟩ := p
      cases draft <;> simp [Except.map, Progress.finish, Progress.bare]

/-- With the lint off a text compiles exactly if its lines that are neither blank nor comments are
derived from the grammar, and then into the workflows that its outlines denote, in their order. -/
theorem compileAll_accepts (file : String) :
    ((∃ ws, (⟨registry, profiles, false⟩ : Compiler).compileAll text file = .ok ws) ↔
      ∃ os, Outline.DeriveAll ⟨registry, profiles, false⟩ file os
        ((Line.ofText text).filter Line.isShown)) ∧
    ∀ built : List Workflow,
      (∃ ws, (⟨registry, profiles, false⟩ : Compiler).compileAll text file = .ok ws ∧
        ws.map Workflow.undigested = built) ↔
      ∃ os, Outline.DeriveAll ⟨registry, profiles, false⟩ file os
        ((Line.ofText text).filter Line.isShown) ∧
          built = os.map (Outline.workflow ⟨registry, profiles, false⟩ file) := by
  have agree (built : List Workflow) :
      (∃ ws, (⟨registry, profiles, false⟩ : Compiler).compileAll text file = .ok ws ∧
        ws.map Workflow.undigested = built) ↔
      ∃ os, Outline.DeriveAll ⟨registry, profiles, false⟩ file os
        ((Line.ofText text).filter Line.isShown) ∧
          built = os.map (Outline.workflow ⟨registry, profiles, false⟩ file) :=
    (compileLines_iff text built).trans Progress.foldlM_read_iff
  refine ⟨⟨fun ⟨ws, compiled⟩ => ?_, fun ⟨os, derive⟩ => ?_⟩, agree⟩
  · obtain ⟨os, derive, -⟩ := (agree _).mp ⟨ws, compiled, rfl⟩
    exact ⟨os, derive⟩
  · obtain ⟨ws, compiled, -⟩ := (agree _).mpr ⟨os, derive, rfl⟩
    exact ⟨ws, compiled⟩

end Compiler
end Journey
