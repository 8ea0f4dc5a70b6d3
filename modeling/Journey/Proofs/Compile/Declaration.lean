import Journey.Proofs.Compile.Ownership

/-!
The variables of a compiled workflow are those of the variable lines between its header and its end,
each declared once, and kept by ascending name. Whether the values can refer to each other is decided
when a run seeds them.
-/

namespace Journey

variable {c : Compiler} {file : String}

namespace Line

/-- The variables that are declared behind a line and in front of the next end of a workflow, in the
order of the text. -/
def declarations (text : String) (n : Nat) : List (String × Value) :=
  ((((ofText text).filter isShown).dropWhile (·.number ≤ n)).takeWhile
    (·.text ≠ "end workflow".toList)).filterMap declared?

theorem declared?_eq_none {l : Line} (h : Variable.parseLine l.raw = none) : l.declared? = none := by
  rw [← Variable.parseLine_trim, show Text.trim l.raw = l.text from rfl] at h
  rw [declared?, h]

theorem led_of_declared? {l : Line} {entry : String × Value} (h : l.declared? = some entry) :
    Variable.Led l.raw := by
  refine Variable.led_of_parseLine fun none => ?_
  rw [declared?_eq_none none] at h
  cases h

theorem declared?_of_keyed (key : MetaKey) {value : List Char} {l : Line}
    (h : l.Keyed key.word value) : l.declared? = none :=
  declared?_eq_none (MetaKey.not_variable (parse_of_keyed key h))

theorem declared?_of_opens {name : BlockName} {l : Line} (opens : l.text = (name.text ++ ":").toList) :
    l.declared? = none := by
  by_contra held
  obtain ⟨entry, held⟩ := Option.ne_none_iff_exists'.mp held
  exact (led_of_declared? held).not_block name opens

theorem declared?_of_ends {word : String} {l : Line} (h : Ends word l.raw) : l.declared? = none := by
  by_contra held
  obtain ⟨entry, held⟩ := Option.ne_none_iff_exists'.mp held
  obtain ⟨rest, found, -⟩ := h.after
  rw [(led_of_declared? held).not_close] at found
  cases found

theorem declared?_of_acts {ls : List Line} (act : ∀ l ∈ ls, l.Acts c file) :
    ls.filterMap declared? = [] := by
  refine List.filterMap_eq_nil_iff.mpr fun l mem => declared?_eq_none ?_
  obtain ⟨action, _, read, -⟩ := act l mem
  exact Variable.parseLine_of_led (led_of_action read)

end Line

namespace Item

variable {item : Item}

theorem Derives.filterMap_declared? (h : item.Derives c file) :
    item.lines.filterMap Line.declared? = item.declared?.toList := by
  cases h with
  | setting read known =>
      simp only [List.mem_cons, List.not_mem_nil, or_false] at known
      rcases known with rfl | rfl | rfl
      · simp [lines, declared?, Line.declared?_of_keyed .tags read]
      · simp [lines, declared?, Line.declared?_of_keyed .locators read]
      · simp [lines, declared?, Line.declared?_of_keyed .success read]
  | failurePolicy read known =>
      simp [lines, declared?, Line.declared?_of_keyed .onPhaseFailure read]
  | @declaration line name raw read word =>
      rw [lines, declared?]
      cases held : line.declared? <;> simp [held]
  | block opens act closes =>
      simp [lines, declared?, Line.declared?_of_opens opens, Line.declared?_of_acts act,
        Line.declared?_of_ends closes]
  | phase read header filled act closes =>
      simp [lines, declared?, Line.declared?_of_keyed .phase read, Line.declared?_of_acts act,
        Line.declared?_of_ends closes]

end Item

theorem Items.filterMap_declared? {items : List Item}
    (derive : ∀ item ∈ items, item.Derives c file) :
    (Items.lines items).filterMap Line.declared? = Items.vars items := by
  induction items with
  | nil => rfl
  | cons item rest ih =>
      obtain ⟨first, others⟩ := List.forall_mem_cons.mp derive
      rw [Items.lines, List.flatMap_cons, List.filterMap_append, first.filterMap_declared?]
      refine (congrArg _ (ih others)).trans ?_
      cases held : item.declared? <;> simp [Items.vars, held]

/-- The variables of the workflow are those declared in its part of the text, each once. -/
structure Workflow.Declares (text : String) (w : Workflow) : Prop where
  vars : w.vars = Dict.ofList (Line.declarations text w.source.line)
  distinct : ((Line.declarations text w.source.line).map Prod.fst).Nodup

namespace Workflow.Declares

variable {text : String} {w : Workflow}

theorem perm (h : w.Declares text) : w.vars.Perm (Line.declarations text w.source.line) :=
  h.vars ▸ Dict.ofList_perm h.distinct

theorem nodup_vars (h : w.Declares text) : (w.vars.map Prod.fst).Nodup :=
  (h.perm.map Prod.fst).nodup_iff.mpr h.distinct

end Workflow.Declares

/-- What stands behind the header of an outline, up to the next end, are its items. -/
theorem Outline.Derives.behind {o : Outline} {shown before after : List Line}
    (h : o.Derives c file) (sorted : Line.Sorted shown)
    (split : shown = before ++ o.header :: (Items.lines o.items ++ o.ending :: after)) :
    (shown.dropWhile (·.number ≤ o.header.number)).takeWhile (·.text ≠ "end workflow".toList) =
      Items.lines o.items := by
  subst split
  obtain ⟨-, rest, front⟩ := List.pairwise_append.mp sorted
  have early : ∀ l ∈ before ++ [o.header], decide (l.number ≤ o.header.number) = true := by
    refine List.forall_mem_append.mpr ⟨fun l mem => ?_, by simp⟩
    exact decide_eq_true (Nat.le_of_lt (front l mem o.header List.mem_cons_self))
  have late : (Items.lines o.items ++ o.ending :: after).dropWhile
      (fun l => decide (l.number ≤ o.header.number)) = Items.lines o.items ++ o.ending :: after := by
    cases found : Items.lines o.items ++ o.ending :: after with
    | nil => rfl
    | cons l more =>
        have later := (List.pairwise_cons.mp rest).1 l (by simp [found])
        rw [List.dropWhile_cons_of_neg (by simpa using later)]
  have front : ∀ l ∈ Items.lines o.items, decide (l.text ≠ "end workflow".toList) = true :=
    fun l mem => decide_eq_true (Items.goesOn h.items l mem)
  have stop : (o.ending :: after).takeWhile (·.text ≠ "end workflow".toList) = [] :=
    List.takeWhile_cons_of_neg fun on => of_decide_eq_true on h.ending
  rw [List.append_cons, List.dropWhile_append_of_pos early, late, List.takeWhile_append_of_pos front,
    stop, List.append_nil]

/-- Every workflow that is compiled declares the variables of its part of the text. -/
theorem Compiler.declares_of_compileAll {c : Compiler} {text file : String} {ws : List Workflow}
    (compiled : c.compileAll text file = .ok ws) {w : Workflow} (mem : w ∈ ws) :
    w.Declares text := by
  obtain ⟨o, derives, held, _, _, split⟩ := outline_of_compileAll compiled mem
  have line : w.source.line = o.header.number := by
    have source : w.source = o.header.at_ file :=
      (congrArg Workflow.source held).trans (Outline.source_workflowOf _ _)
    rw [source]
    rfl
  have shown : Line.Sorted ((Line.ofText text).filter Line.isShown) :=
    (Line.sorted_ofText text).filter _
  have found : Line.declarations text w.source.line = Items.vars o.items := by
    rw [Line.declarations, line, derives.behind shown (Outline.parted split),
      Items.filterMap_declared? derives.items]
  refine ⟨?_, ?_⟩
  · rw [found]
    exact (congrArg Workflow.vars held).trans (Outline.workflowOf_vars _ _ _ _)
  · rw [found]
    exact derives.distinct.vars

end Journey
