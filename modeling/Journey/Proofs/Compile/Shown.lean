import Journey.Compile
import Journey.Proofs.Except

/-!
The lines that a compilation looks at. Blank lines and comments change nothing but the text that a
workflow is digested from, so that compiling a text is reading its other lines one after another.
Which rows of lines can be read to their end is stated by the grammar of outlines.
-/

namespace Journey

/-- A line of a text and its number, counted from one. -/
structure Line where
  number : Nat
  raw : List Char
  deriving DecidableEq

namespace Line

def text (l : Line) : List Char := Text.trim l.raw

def at_ (file : String) (l : Line) : SourceRef := ⟨file, l.number⟩

/-- The line is neither blank nor a comment. -/
def isShown (l : Line) : Bool := !Progress.isIgnored l.text

def numbered (n : Nat) (raws : List (List Char)) : List Line :=
  (raws.zipIdx n).map fun (raw, number) => ⟨number, raw⟩

def ofText (text : String) : List Line := numbered 1 (Text.lines text.toList)

theorem numbered_cons (n : Nat) (raw : List Char) (raws : List (List Char)) :
    numbered n (raw :: raws) = ⟨n, raw⟩ :: numbered (n + 1) raws := rfl

end Line

def Workflow.undigested (w : Workflow) : Workflow := { w with digest := "" }

namespace Draft

def withLines (d : Draft) (lines : List String) : Draft := { d with lines := lines }

theorem addStep_withLines (d : Draft) (lines : List String) (step : Step) :
    (d.withLines lines).addStep step = (d.addStep step).map (·.withLines lines) := by
  obtain ⟨w, old, seen, opened⟩ := d
  cases opened <;> rfl

theorem close_withLines (d : Draft) (lines : List String) (word : String) (source : SourceRef) :
    (d.withLines lines).close word source = (d.close word source).map (·.withLines lines) := by
  obtain ⟨w, old, seen, opened⟩ := d
  cases opened with
  | none => rfl
  | some opened =>
      simp only [close, withLines]
      split
      case isTrue =>
        cases opened with
        | phase phase =>
            dsimp only
            split <;> rfl
        | block name steps source => cases name <;> rfl
      case isFalse => rfl

theorem addMeta_withLines (d : Draft) (lines : List String) (key : MetaKey) (value : List Char)
    (source : SourceRef) :
    (d.withLines lines).addMeta key value source =
      (d.addMeta key value source).map (·.withLines lines) := by
  obtain ⟨w, old, seen, opened⟩ := d
  cases key with
  | workflow | tags | locators | success => rfl
  | onPhaseFailure =>
      simp only [addMeta, withLines]
      split <;> rfl
  | phase =>
      simp only [addMeta]
      split
      case h_1 => rfl
      case h_2 phase _ =>
        by_cases taken : (w.phases.any fun p => p.name == phase.name) = true <;>
          simp [withLines, taken, Except.map]

theorem addStatement_withLines (d : Draft) (lines : List String) (line : List Char)
    (source : SourceRef) :
    (d.withLines lines).addStatement line source =
      (d.addStatement line source).map (·.withLines lines) := by
  obtain ⟨w, old, seen, opened⟩ := d
  simp only [addStatement]
  split
  case h_1 name _ =>
    by_cases taken : name ∈ seen <;> simp [openBlock, withLines, taken, Except.map]
  case h_2 =>
    split
    case h_1 => rfl
    case h_2 name _ _ =>
      by_cases taken : Dict.contains w.vars name = true <;>
        simp [declare, withLines, taken, Except.map]
    case h_3 =>
      split
      case h_1 => exact addMeta_withLines _ _ _ _ _
      case h_2 => rfl

/-- What a line does to a workflow under construction has nothing to do with the lines so far. -/
theorem addLine_withLines (c : Compiler) (d : Draft) (lines : List String) (line : List Char)
    (source : SourceRef) :
    (d.withLines lines).addLine c line source =
      (d.addLine c line source).map (·.withLines lines) := by
  simp only [addLine]
  split
  case h_1 => rfl
  case h_2 =>
    split
    case h_1 => rfl
    case h_2 step _ =>
      rw [addStep_withLines]
      cases d.addStep step <;> rfl
  case h_3 =>
    split
    case h_1 => exact close_withLines _ _ _ _
    case h_2 =>
      rw [addStatement_withLines, show (d.withLines lines).opened = d.opened from rfl]
      cases d.opened with
      | some _ => rfl
      | none => cases d.addStatement line source <;> rfl

theorem finish_withLines (d : Draft) (lines : List String) (source : SourceRef) :
    ((d.withLines lines).finish source).map Workflow.undigested =
      (d.finish source).map Workflow.undigested := by
  obtain ⟨w, old, seen, opened⟩ := d
  cases opened with
  | some _ => rfl
  | none =>
      by_cases bare : w.phases.isEmpty = true <;>
        simp [finish, withLines, bare, Except.map, Workflow.undigested]

end Draft

namespace Progress

/-- The progress without what only digests depend on. -/
def bare (p : Progress) : Progress :=
  ⟨p.finished.map Workflow.undigested, p.draft.map (·.withLines [])⟩

/-- Reads one line that is shown, keeping no text for digests. -/
def read (c : Compiler) (file : String) (p : Progress) (l : Line) : Except CompileError Progress :=
  if l.text = "end workflow".toList then
    match p.draft with
    | none => .error ⟨l.at_ file, .strayEnd⟩
    | some d => (d.finish (l.at_ file)).map fun w => ⟨p.finished ++ [w.undigested], none⟩
  else
    match p.draft with
    | none =>
        (p.startWorkflow l.text "" (l.at_ file)).map fun q =>
          ⟨p.finished, q.draft.map (·.withLines [])⟩
    | some d => (d.addLine c l.text (l.at_ file)).map fun d => ⟨p.finished, some d⟩

theorem feed_ignored (c : Compiler) (p : Progress) {raw : List Char} (source : SourceRef)
    (h : isIgnored (Text.trim raw) = true) : (p.feed c raw source).map bare = .ok p.bare := by
  simp only [feed, h, if_true, Except.map, bare, Option.map_map]
  rfl

/-- The lines and digests so far have no part in what the next line does. -/
theorem feed_shown (c : Compiler) (file : String) (p : Progress) {l : Line}
    (shown : l.isShown = true) :
    (p.feed c l.raw (l.at_ file)).map bare = p.bare.read c file l := by
  obtain ⟨finished, draft⟩ := p
  have visible : isIgnored l.text = false := by simpa [Line.isShown] using shown
  have kept (d : Draft) (raw : String) : d.keepLine raw = d.withLines (raw :: d.lines) := rfl
  simp only [feed, read, bare, show Text.trim l.raw = l.text from rfl, visible, Bool.false_eq_true,
    if_false]
  by_cases ends : l.text = "end workflow".toList
  · rw [if_pos ends, if_pos ends]
    cases draft with
    | none => rfl
    | some d =>
        have same := (d.finish_withLines (String.ofList l.raw :: d.lines) (l.at_ file)).trans
          (d.finish_withLines [] (l.at_ file)).symm
        simp only [Option.map_some, kept]
        revert same
        cases (d.withLines (String.ofList l.raw :: d.lines)).finish (l.at_ file) <;>
          cases (d.withLines []).finish (l.at_ file) <;>
          simp [Except.map, bare]
  · rw [if_neg ends, if_neg ends]
    cases draft with
    | none =>
        simp only [Option.map_none, startWorkflow]
        split
        case h_1 =>
          split <;> rfl
        case h_2 => rfl
    | some d =>
        simp only [Option.map_some, kept, Draft.addLine_withLines]
        cases d.addLine c l.text (l.at_ file) with
        | error e => rfl
        | ok d' => rfl

/-- Feeding a text comes to reading the lines of it that are shown. -/
theorem feedAll_read (c : Compiler) (file : String) (n : Nat) (raws : List (List Char))
    (p : Progress) :
    (feedAll c file n raws p).map bare =
      ((Line.numbered n raws).filter Line.isShown).foldlM (read c file) p.bare := by
  induction raws generalizing n p with
  | nil => rfl
  | cons raw rest ih =>
      rw [Line.numbered_cons, feedAll]
      cases ignored : isIgnored (Text.trim raw) with
      | true =>
          have hidden : ¬ Line.isShown ⟨n, raw⟩ = true := by simp [Line.isShown, Line.text, ignored]
          have kept := p.feed_ignored c ⟨file, n⟩ ignored
          rw [List.filter_cons_of_neg hidden]
          cases fed : p.feed c raw ⟨file, n⟩ with
          | error e =>
              rw [fed] at kept
              cases kept
          | ok next =>
              rw [fed] at kept
              rw [← Except.ok.inj kept]
              exact ih (n + 1) next
      | false =>
          have shown : Line.isShown ⟨n, raw⟩ = true := by simp [Line.isShown, Line.text, ignored]
          rw [List.filter_cons_of_pos shown, List.foldlM_cons, ← feed_shown c file p shown]
          change _ = Except.map bare (p.feed c raw ⟨file, n⟩) >>= _
          cases p.feed c raw ⟨file, n⟩ with
          | error e => rfl
          | ok next => exact ih (n + 1) next

end Progress
end Journey
